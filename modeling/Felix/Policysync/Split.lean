import Felix.Calc.EventSequencer

/-!
# Splitting IP set messages for gRPC

The policy-sync server (`policysync/processor.go`) sends IP set messages to its clients over
gRPC, where a message has a size limit. `splitIPSetUpdate` and `splitIPSetDeltaUpdate` cut an
IP set message into several, each with at most `MaxMembersPerMessage` members.
`splitMembers` cuts a member list into chunks of that size, and an empty list into one empty
chunk. An `IPSetUpdate` becomes an `IPSetUpdate` with the first chunk and an
`IPSetDeltaUpdate` adding each further chunk. An `IPSetDeltaUpdate` becomes deltas that take
the chunks of added members from the front, and attach a chunk of removed members, from the
back, when it fits beside the added chunk.

The messages are the calculation graph's (`Felix.Calc.Message`), over any payload types.

The delta loop of the source runs until both chunk lists are empty. Here it is given the
number of chunks as fuel: every turn consumes a chunk, so that is enough, and more fuel gives
the same messages (`deltaLoop_fuel` in the spec).

## Main definitions

* `maxMembersPerMessage`, `splitMembers`
* `splitIPSetUpdate`, `deltaStep`, `deltaLoop`, `splitIPSetDeltaUpdate`
-/

namespace Felix.Policysync

open Felix.Calc

/-- `MaxMembersPerMessage`: a conservative number of members that fit in one gRPC message. -/
def maxMembersPerMessage : ℕ := 82200
attribute [grind] maxMembersPerMessage

section Members

variable {α : Type}

/-- The loop of `splitMembers`: chunks of `MaxMembersPerMessage` members from the front, the
last one shorter. -/
def splitMembersLoop (members : List α) : List (List α) :=
  match members with
  | [] => []
  | m :: ms =>
    (m :: ms).take maxMembersPerMessage :: splitMembersLoop ((m :: ms).drop maxMembersPerMessage)
termination_by members.length
decreasing_by simp only [List.length_drop, List.length_cons, maxMembersPerMessage]; omega
attribute [grind] splitMembersLoop

/-- `splitMembers`: the chunks of a member list, and one empty chunk for an empty list. -/
def splitMembers (members : List α) : List (List α) :=
  if members = [] then [[]] else splitMembersLoop members

end Members

variable {P : Payloads}

/-- `splitIPSetUpdate`: an `IPSetUpdate` with the first chunk, then an `IPSetDeltaUpdate` adding
each further chunk. `splitMembers` never returns no chunk, where the source would index out of
range. -/
def splitIPSetUpdate (id : P.SetID) (members : List P.Member) (type : P.SetType) :
    List (Message P) :=
  match splitMembers members with
  | [] => []
  | first :: rest => .ipSetUpdate id first type :: rest.map fun ms => .ipSetDeltaUpdate id ms []

/-- A turn of the loop of `splitIPSetDeltaUpdate`: the first chunk of added members if there
is one, and the last chunk of removed members if it fits beside it. -/
def deltaStep (id : P.SetID) (adds dels : List (List P.Member)) :
    Message P × List (List P.Member) × List (List P.Member) :=
  -- `adds[0]` and `adds[1:]` when there is a chunk, and nothing added otherwise
  let addedMembers := adds.headD []
  let adds := adds.tail
  match dels.getLast? with
  | some d =>
    if addedMembers.length + d.length ≤ maxMembersPerMessage then
      (.ipSetDeltaUpdate id addedMembers d, adds, dels.dropLast)
    else (.ipSetDeltaUpdate id addedMembers [], adds, dels)
  | none => (.ipSetDeltaUpdate id addedMembers [], adds, dels)

/-- The loop of `splitIPSetDeltaUpdate`, while chunks remain, with `fuel` turns at most. -/
def deltaLoop (id : P.SetID) :
    ℕ → List (List P.Member) → List (List P.Member) → List (Message P)
  | 0, _, _ => []
  | fuel + 1, adds, dels =>
    if adds.length + dels.length > 0 then
      let (msg, adds, dels) := deltaStep id adds dels
      msg :: deltaLoop id fuel adds dels
    else []
attribute [grind] deltaLoop

/-- `splitIPSetDeltaUpdate`. -/
def splitIPSetDeltaUpdate (id : P.SetID) (addedMembers removedMembers : List P.Member) :
    List (Message P) :=
  let adds := splitMembers addedMembers
  let dels := splitMembers removedMembers
  deltaLoop id (adds.length + dels.length) adds dels

end Felix.Policysync
