import Mathlib

/-!
# Interface dispatch chains

A packet from (or to) a workload or host endpoint is sent to the endpoint's chain by a dispatch
chain that matches on the interface name. With hundreds of endpoints one chain of exact matches
would be slow, so `interfaceNameDispatchChains` renders a shallow tree instead:
`sortAndDivideEndpointNamesToPrefixTree` sorts the names, takes their common prefix and puts each
name in the bin of the common prefix and its next character; `buildSingleDispatchChains` gives a
bin of one name an exact match in the root chain, and a bin of several names a wildcard match
(`prefix+`) in the root chain with a goto to a child chain of exact matches. Both chains end with
the caller's end rules, since a goto does not come back.

Go strings are byte strings, and the code only compares, slices and sorts them: a `GoString` is
the list of its bytes, each read as the `Char` of its value.

The meaning of the chains is iptables': `-i name` matches the interface `name`, and `-i name+`
every interface whose name starts with `name`. `dispatch` walks the rules of a chain for a packet
and follows gotos into the other dispatch chains.

## Main definitions

* `Stringutils.commonPrefix`, `sortAndDivideEndpointNamesToPrefixTree`
* `DispatchRule`, `DispatchChain`, `buildSingleDispatchChains`, `interfaceNameDispatchChains`
* `ifaceMatches`, `dispatch`, `dispatchFromRoot`
-/

namespace Felix.Rules.Dispatch

/-- A Go string, byte by byte: each byte is the `Char` of its value. -/
abbrev GoString := List Char

end Felix.Rules.Dispatch

namespace Felix.Stringutils

open Felix.Rules.Dispatch (GoString)

/-- `commonPrefixTwoStrings`: `a` up to the first index at which it differs from `b`. -/
def commonPrefixTwoStrings : GoString → GoString → GoString
  | c :: a, d :: b => if c = d then c :: commonPrefixTwoStrings a b else []
  | _, _ => []
attribute [grind] commonPrefixTwoStrings

/-- `CommonPrefix`: the first string cut down by each of the others in turn. -/
def commonPrefix : List GoString → GoString
  | [] => []
  | s :: strs => strs.foldl commonPrefixTwoStrings s

end Felix.Stringutils

namespace Felix.Rules.Dispatch

/-! ## Dividing the names into bins -/

/-- The bin of a name: the common prefix and the name's next byte, or the common prefix itself
for a name no longer than it. -/
def binOf (commonPrefix name : GoString) : GoString :=
  if name.length > commonPrefix.length then name.take (commonPrefix.length + 1) else commonPrefix

/-- What the loop of `sortAndDivideEndpointNamesToPrefixTree` keeps: the bins in the order they
are first met, the map from a bin to its names (`none` where Go's map has no entry), and the last
name it kept. -/
structure DivideState where
  prefixes : List GoString
  prefixToNames : GoString → Option (List GoString)
  lastName : GoString

/-- The state before the first name. -/
def DivideState.init : DivideState := ⟨[], fun _ => none, []⟩

/-- One name of the loop: an empty name panics, a repeat of the last name is skipped, and any
other name is appended to its bin, which is recorded the first time it is met. -/
def divideStep (commonPrefix : GoString) (st : DivideState) (name : GoString) :
    Except String DivideState :=
  if name = [] then .error "Unable to divide endpoint names. Empty interface name."
  else if name = st.lastName then .ok st
  else
    let pfx := binOf commonPrefix name
    let prefixes := if (st.prefixToNames pfx).isNone then st.prefixes ++ [pfx] else st.prefixes
    .ok { prefixes
          prefixToNames :=
            Function.update st.prefixToNames pfx (some ((st.prefixToNames pfx).getD [] ++ [name]))
          lastName := name }

/-- `sortAndDivideEndpointNamesToPrefixTree`: the common prefix of the sorted names, the bins in
order, and the names of each bin. -/
def sortAndDivideEndpointNamesToPrefixTree (names : List GoString) :
    Except String (GoString × List GoString × (GoString → Option (List GoString))) := do
  let names := names.insertionSort (· ≤ ·)
  let commonPrefix := Stringutils.commonPrefix names
  let st ← names.foldlM (divideStep commonPrefix) DivideState.init
  return (commonPrefix, st.prefixes, st.prefixToNames)
attribute [grind] sortAndDivideEndpointNamesToPrefixTree

/-! ## The chains -/

/-- The interface matches of dispatch rules: `Match().InInterface(name)` and
`Match().OutInterface(name)`. -/
inductive IfaceMatch where
  | inInterface (name : GoString)
  | outInterface (name : GoString)
  deriving DecidableEq

/-- A rule of a dispatch chain: an interface match with a goto, or one of the end rules the caller
passes, which the dispatch code only appends. -/
inductive DispatchRule (ρ : Type) where
  | gotoRule (m : IfaceMatch) (target : GoString)
  | endRule (r : ρ)
  deriving DecidableEq

/-- A dispatch chain. -/
structure DispatchChain (ρ : Type) where
  name : GoString
  rules : List (DispatchRule ρ)
  deriving DecidableEq

section Build

variable {ρ : Type} (chainName commonPrefix : GoString)
  (prefixToNames : GoString → Option (List GoString)) (endpointPfx : GoString)
  (getMatchForEndpoint : GoString → IfaceMatch) (endpointChainName : GoString → GoString → GoString)
  (endRules : List ρ)

/-- The rule that sends an endpoint's interface to the endpoint's chain. -/
def endpointRule (name : GoString) : DispatchRule ρ :=
  .gotoRule (getMatchForEndpoint name) (endpointChainName endpointPfx name)
attribute [grind] endpointRule

/-- One bin of the loop of `buildSingleDispatchChains`: several names get a wildcard goto in the
root chain and a child chain of their exact matches and the end rules; one name gets its exact
match in the root chain. -/
def buildPrefix (acc : List (DispatchChain ρ) × List (DispatchRule ρ)) (pfx : GoString) :
    List (DispatchChain ρ) × List (DispatchRule ρ) :=
  let ifaceNames := (prefixToNames pfx).getD []
  if ifaceNames.length > 1 then
    let nextChar := pfx.drop commonPrefix.length
    let ifaceMatch := pfx ++ ['+']
    let childChainName := chainName ++ ['-'] ++ nextChar
    let childEndpointRules :=
      ifaceNames.map (endpointRule endpointPfx getMatchForEndpoint endpointChainName) ++
        endRules.map .endRule
    (acc.1 ++ [⟨childChainName, childEndpointRules⟩],
      acc.2 ++ [.gotoRule (getMatchForEndpoint ifaceMatch) childChainName])
  else
    -- `ifaceNames[0]`: a bin that was recorded has a name
    let ifaceName := ifaceNames.headD []
    (acc.1, acc.2 ++ [endpointRule endpointPfx getMatchForEndpoint endpointChainName ifaceName])

/-- `buildSingleDispatchChains`: the child chains, the root chain and the root chain's rules. -/
def buildSingleDispatchChains (prefixes : List GoString) :
    List (DispatchChain ρ) × DispatchChain ρ × List (DispatchRule ρ) :=
  let (childChains, rootRules) :=
    prefixes.foldl
      (buildPrefix chainName commonPrefix prefixToNames endpointPfx getMatchForEndpoint
        endpointChainName endRules) ([], [])
  let rootRules := rootRules ++ endRules.map .endRule
  (childChains, ⟨chainName, rootRules⟩, rootRules)

end Build

/-- `interfaceNameDispatchChains`: the from-endpoint chains, children first, when there is a
from-endpoint prefix, then the to-endpoint chains when there is a to-endpoint prefix. -/
def interfaceNameDispatchChains {ρ : Type} (names : List GoString)
    (fromEndpointPfx toEndpointPfx dispatchFromEndpointChainName
      dispatchToEndpointChainName : GoString)
    (endpointChainName : GoString → GoString → GoString) (fromEndRules toEndRules : List ρ) :
    Except String (List (DispatchChain ρ)) := do
  let (commonPrefix, prefixes, prefixToNames) ← sortAndDivideEndpointNamesToPrefixTree names
  let fromChains :=
    if fromEndpointPfx ≠ [] then
      let (fromChildChains, fromRootChain, _) :=
        buildSingleDispatchChains dispatchFromEndpointChainName commonPrefix prefixToNames
          fromEndpointPfx .inInterface endpointChainName fromEndRules prefixes
      fromChildChains ++ [fromRootChain]
    else []
  let toChains :=
    if toEndpointPfx ≠ [] then
      let (toChildChains, toRootChain, _) :=
        buildSingleDispatchChains dispatchToEndpointChainName commonPrefix prefixToNames
          toEndpointPfx .outInterface endpointChainName toEndRules prefixes
      toChildChains ++ [toRootChain]
    else []
  return fromChains ++ toChains

/-! ## What the chains do to a packet -/

/-- iptables' interface match: a pattern ending in `+` matches every name that starts with the
rest of it, any other pattern only itself. -/
def ifaceMatches (pattern name : GoString) : Bool :=
  if pattern.getLast? = some '+' then pattern.dropLast.isPrefixOf name else pattern == name
attribute [grind] ifaceMatches

/-- The interfaces a packet came in on and goes out on. -/
structure Packet where
  inIface : GoString
  outIface : GoString

/-- Whether an interface match holds of a packet. -/
def IfaceMatch.matches (pkt : Packet) : IfaceMatch → Bool
  | .inInterface name => ifaceMatches name pkt.inIface
  | .outInterface name => ifaceMatches name pkt.outIface

/-- Where a packet leaves the dispatch chains: by a goto to a chain that is not one of them, or at
an end rule, going on with the rules from there. -/
inductive Dispatched (ρ : Type) where
  | goto (target : GoString)
  | runs (rules : List (DispatchRule ρ))
  deriving DecidableEq

section Walk

variable {ρ : Type} (chains : List (DispatchChain ρ)) (pkt : Packet)

/-- The rules of one chain in order, for a packet: the first goto whose match holds is taken,
into `enter` when it names one of `chains`, and the first end rule leaves the dispatch rules. -/
def walk (enter : DispatchChain ρ → Option (Dispatched ρ)) :
    List (DispatchRule ρ) → Option (Dispatched ρ)
  | [] => some (.runs [])
  | .endRule r :: rs => some (.runs (.endRule r :: rs))
  | .gotoRule m target :: rs =>
    if m.matches pkt then
      match chains.find? (·.name == target) with
      | some c => enter c
      | none => some (.goto target)
    else walk enter rs
attribute [grind] walk

/-- The dispatch chains from the rules of one of them, with `fuel` gotos into them at most; `none`
when the gotos outrun the fuel. -/
def dispatch : ℕ → List (DispatchRule ρ) → Option (Dispatched ρ)
  | 0 => walk chains pkt fun _ => none
  | fuel + 1 => walk chains pkt fun c => dispatch fuel c.rules

/-- A packet's walk from the root chain of what `buildSingleDispatchChains` returns, through the
chains it returns. -/
def dispatchFromRoot (built : List (DispatchChain ρ) × DispatchChain ρ × List (DispatchRule ρ))
    (fuel : ℕ) : Option (Dispatched ρ) :=
  dispatch (built.1 ++ [built.2.1]) pkt fuel built.2.1.rules

end Walk

end Felix.Rules.Dispatch
