import Felix.Bpf.Conntrack.Map
import Mathlib

/-!
# The conntrack cleanup pass

Felix removes dead connections from the BPF conntrack map with a `Scanner` pass
(`bpf/conntrack/scanner.go`): it iterates over the map, asks each `EntryScanner` in turn about
the entry it is visiting, and deletes that entry as soon as one says so. Only the visited entry
may be deleted, so the `LivenessScanner` (`bpf/conntrack/cleanup.go`) judges a forward-NAT entry
by the reverse entry it names, which it looks up in the map as the pass has left it so far: the
forward entry goes when the reverse entry is expired, or already gone. A normal or reverse entry
goes when it is expired itself (`Timeouts.EntryExpired`).

A forward entry's reverse entry is judged with the forward key's protocol, not its own. When the
two protocols agree, a pass deletes exactly the entries that are dead against the map it started
from (`Timeouts.dead`), whatever order it visits them in, and every forward entry it keeps still
has its reverse entry, unexpired (`liveness_scan_deletes_dead`). When they do not, a reverse entry
can be expired under its own protocol but not under its forward entry's: visited after the
forward entry it is deleted and the forward entry stays without it; visited before, both go
(`liveness_scan_mixed_protocols`).

The kernel time is read once per pass (`LivenessScanner.cachedKTime`).

## Main definitions

* `Timeouts.entryExpired`, `LivenessScanner.check`
* `scanEntry`, `scan`: one turn of the iteration, and the pass
* `Timeouts.dead`: what a pass should delete, against the map it starts from

## Main results

* `liveness_scan_deletes_dead`
* `liveness_scan_mixed_protocols`
-/

namespace Felix.Bpf.Conntrack

/-- The contents of the conntrack map. -/
abbrev CtMap := AList fun _ : Key => Value

/-! ## Expiry -/

/-- `Timeouts`, in nanoseconds. -/
structure Timeouts where
  creationGracePeriod : Int64
  tcpPreEstablished : Int64
  tcpEstablished : Int64
  tcpFinsSeen : Int64
  tcpResetSeen : Int64
  udpLastSeen : Int64
  genericIPLastSeen : Int64
  icmpLastSeen : Int64

/-- `time.Second`, in nanoseconds. -/
def second : Int64 := 1000000000

/-- `DefaultTimeouts`. -/
def defaultTimeouts : Timeouts where
  creationGracePeriod := 10 * second
  tcpPreEstablished := 20 * second
  tcpEstablished := 3600 * second
  tcpFinsSeen := 30 * second
  tcpResetSeen := 40 * second
  udpLastSeen := 60 * second
  genericIPLastSeen := 600 * second
  icmpLastSeen := 5 * second

/-- `Timeouts.EntryExpired`: the reason and whether the entry has expired. The TCP checks fall
through: an entry that has seen a reset but is not idle for the reset timeout is still judged by
the FIN and the established or pre-established timeouts. -/
def Timeouts.entryExpired (t : Timeouts) (nowNanos : Int64) (proto : UInt8) (entry : Value) :
    String × Bool :=
  let sinceCreation := nowNanos - entry.created
  if sinceCreation < t.creationGracePeriod then ("", false)
  else
    let age := nowNanos - entry.lastSeen
    if proto = protoTCP then
      let dsr := entry.isForwardDSR
      let data := entry.data
      let rstSeen := data.rstSeen
      if rstSeen = true ∧ age > t.tcpResetSeen then ("RST seen", true)
      else
        let finsSeen := (dsr && data.finsSeenDSR) || data.finsSeen
        if finsSeen = true ∧ age > t.tcpFinsSeen then ("FINs seen", true)
        else if data.established || dsr then
          if age > t.tcpEstablished then ("no traffic on established flow for too long", true)
          else ("", false)
        else if age > t.tcpPreEstablished then
          ("no traffic on pre-established flow for too long", true)
        else ("", false)
    else if proto = protoICMP then
      if age > t.icmpLastSeen then ("no traffic on ICMP flow for too long", true) else ("", false)
    else if proto = protoUDP then
      if age > t.udpLastSeen then ("no traffic on UDP flow for too long", true) else ("", false)
    else if age > t.genericIPLastSeen then ("no traffic on generic IP flow for too long", true)
    else ("", false)

/-! ## Scanning -/

/-- `ScanVerdict`. -/
inductive ScanVerdict where
  | ok
  | delete
  deriving DecidableEq

/-- The errors of a map lookup: the key is not in the map, or the lookup failed. -/
inductive GetError where
  | notExists
  | failed
  deriving DecidableEq

/-- `EntryGet`. -/
abbrev EntryGet := Key → Except GetError Value

/-- `EntryScanner`: its `Check`. -/
abbrev EntryScanner := Key → Value → EntryGet → ScanVerdict

/-- `LivenessScanner`, with the kernel time it has cached for the pass. -/
structure LivenessScanner where
  timeouts : Timeouts
  cachedKTime : Int64

/-- `LivenessScanner.Check`. -/
def LivenessScanner.check (l : LivenessScanner) (ctKey : Key) (ctVal : Value) (get : EntryGet) :
    ScanVerdict :=
  let now := l.cachedKTime
  if ctVal.type = typeNATForward then
    -- the reverse entry, where the BPF programs do the bookkeeping
    match get ctVal.reverseNATKey with
    | .error .notExists => .delete
    | .error _ => .ok
    | .ok revEntry => if (l.timeouts.entryExpired now ctKey.proto revEntry).2 then .delete else .ok
  else if ctVal.type = typeNATReverse then
    if (l.timeouts.entryExpired now ctKey.proto ctVal).2 then .delete else .ok
  else if ctVal.type = typeNormal then
    if (l.timeouts.entryExpired now ctKey.proto ctVal).2 then .delete else .ok
  else .ok

/-- `Scanner.get`: a lookup in the map as it is now. -/
def get (m : CtMap) (k : Key) : Except GetError Value :=
  match m.lookup k with
  | some v => .ok v
  | none => .error .notExists

/-- The scanners in order: the first that says delete decides, and those after it are not asked. -/
def verdictOf : List EntryScanner → Key → Value → EntryGet → ScanVerdict
  | [], _, _, _ => .ok
  | s :: ss, k, v, g =>
    match s k v g with
    | .delete => .delete
    | .ok => verdictOf ss k v g

/-- One turn of `Scanner.Scan`'s iteration: the visited entry, deleted if a scanner says so. -/
def scanEntry (scanners : List EntryScanner) (m : CtMap) (k : Key) : CtMap :=
  match m.lookup k with
  | none => m
  | some v =>
    match verdictOf scanners k v (get m) with
    | .delete => m.erase k
    | .ok => m

/-- `Scanner.Scan`, visiting the keys in the order `order` lists them. -/
def scan (scanners : List EntryScanner) (m : CtMap) (order : List Key) : CtMap :=
  order.foldl (scanEntry scanners) m

/-! ## What a pass deletes -/

/-- The idle timeout of a protocol other than TCP. -/
def Timeouts.lastSeenTimeout (t : Timeouts) (proto : UInt8) : Int64 :=
  if proto = protoICMP then t.icmpLastSeen
  else if proto = protoUDP then t.udpLastSeen
  else t.genericIPLastSeen

/-- When an entry should count as expired: past its creation grace period, and idle for longer
than a timeout of its protocol; for TCP, longer than one of the four timeouts whose condition
holds, the reset, FIN, established (or forward DSR) and pre-established ones. -/
def Timeouts.Expires (t : Timeouts) (now : Int64) (proto : UInt8) (v : Value) : Prop :=
  ¬ now - v.created < t.creationGracePeriod ∧
    if proto = protoTCP then
      (v.data.rstSeen = true ∧ now - v.lastSeen > t.tcpResetSeen) ∨
        (((v.isForwardDSR && v.data.finsSeenDSR) || v.data.finsSeen) = true ∧
          now - v.lastSeen > t.tcpFinsSeen) ∨
        ((v.data.established || v.isForwardDSR) = true ∧ now - v.lastSeen > t.tcpEstablished) ∨
        (¬ (v.data.established || v.isForwardDSR) = true ∧ now - v.lastSeen > t.tcpPreEstablished)
    else now - v.lastSeen > t.lastSeenTimeout proto

theorem entryExpired_iff (t : Timeouts) (now : Int64) (proto : UInt8) (v : Value) :
    (t.entryExpired now proto v).2 = true ↔ t.Expires now proto v := by
  unfold Timeouts.entryExpired Timeouts.Expires Timeouts.lastSeenTimeout
  split_ifs <;> grind

/-- What a pass should delete, judged against the map `m` it starts from: a forward entry whose
reverse entry is missing or expired, a normal or reverse entry that is expired, and no entry of
another type. Every entry is judged with the protocol of its own key. -/
def Timeouts.dead (t : Timeouts) (now : Int64) (m : CtMap) (k : Key) (v : Value) : Bool :=
  if v.type = typeNATForward then
    match m.lookup v.reverseNATKey with
    | none => true
    | some r => (t.entryExpired now k.proto r).2
  else if v.type = typeNATReverse ∨ v.type = typeNormal then (t.entryExpired now k.proto v).2
  else false
attribute [grind] Timeouts.dead

/-- A reverse entry is dead when it is expired under the protocol of its key. -/
theorem dead_of_reverse {t : Timeouts} {now : Int64} {m : CtMap} {k : Key} {r : Value}
    (hr : r.type = typeNATReverse) : t.dead now m k r = (t.entryExpired now k.proto r).2 := by
  have hf : ¬ typeNATReverse = typeNATForward := by decide
  simp [Timeouts.dead, hf, hr]

/-- Every forward entry of `m` names a reverse entry or nothing, and its key has the protocol of
the key it names. -/
def RevConsistent (m : CtMap) : Prop :=
  ∀ e ∈ m.entries, e.2.type = typeNATForward →
    (m.lookup e.2.reverseNATKey).all (·.type = typeNATReverse) = true ∧
      e.2.reverseNATKey.proto = e.1.proto

instance (m : CtMap) : Decidable (RevConsistent m) :=
  inferInstanceAs (Decidable (∀ e ∈ m.entries, e.2.type = typeNATForward →
    (m.lookup e.2.reverseNATKey).all (·.type = typeNATReverse) = true ∧
      e.2.reverseNATKey.proto = e.1.proto))

/-- The map `cur` once a pass from `m` has visited the keys `vs`: each visited entry that is dead
against `m` is gone, and every other entry is as in `m`. -/
def Swept (t : Timeouts) (now : Int64) (m cur : CtMap) (vs : List Key) : Prop :=
  ∀ x, cur.lookup x = (m.lookup x).filter fun v => !(decide (x ∈ vs) && t.dead now m x v)

section Pass

variable {l : LivenessScanner} {m cur : CtMap} {vs : List Key}

/-- An entry the pass has not visited yet is as in `m`. -/
theorem Swept.lookup_of_not_mem (hcur : Swept l.timeouts l.cachedKTime m cur vs) {x : Key}
    (hx : x ∉ vs) : cur.lookup x = m.lookup x := by
  rw [hcur x]
  cases m.lookup x <;> simp [hx]

/-- The reverse entry a visited forward entry looks up is, as the pass has left it, missing
exactly when it was missing from `m` or was dead and already visited; and a reverse entry of the
forward key's protocol is dead exactly when it is expired under that protocol. -/
theorem Swept.check_eq (hm : RevConsistent m) (hcur : Swept l.timeouts l.cachedKTime m cur vs)
    {k : Key} {v : Value} (hv : m.lookup k = some v) :
    l.check k v (get cur) = if l.timeouts.dead l.cachedKTime m k v then .delete else .ok := by
  unfold LivenessScanner.check Timeouts.dead
  by_cases hf : v.type = typeNATForward
  · obtain ⟨hall, hproto⟩ := hm ⟨k, v⟩ (AList.mem_lookup_iff.mp hv) hf
    simp only [hf, if_true, get, hcur v.reverseNATKey]
    cases hr : m.lookup v.reverseNATKey with
    | none => rfl
    | some r =>
      have hrt : r.type = typeNATReverse := by simpa [hr] using hall
      have hdead : l.timeouts.dead l.cachedKTime m v.reverseNATKey r =
          (l.timeouts.entryExpired l.cachedKTime k.proto r).2 := by
        rw [dead_of_reverse hrt, hproto]
      by_cases he : (l.timeouts.entryExpired l.cachedKTime k.proto r).2 = true
      · by_cases hvis : v.reverseNATKey ∈ vs <;> simp [Option.filter_some, hvis, hdead, he]
      · simp [Option.filter_some, hdead, he]
  · simp only [hf, if_false]
    by_cases hr : v.type = typeNATReverse
    · rw [if_pos hr, if_pos (Or.inl hr)]
    · by_cases hn : v.type = typeNormal
      · rw [if_neg hr, if_pos hn, if_pos (Or.inr hn)]
      · rw [if_neg hr, if_neg hn, if_neg (not_or.mpr ⟨hr, hn⟩)]
        rfl

/-- One turn of the pass keeps it swept, with the visited key added. -/
theorem Swept.scanEntry (hm : RevConsistent m) (hcur : Swept l.timeouts l.cachedKTime m cur vs)
    {k : Key} (hk : k ∉ vs) :
    Swept l.timeouts l.cachedKTime m (scanEntry [l.check] cur k) (k :: vs) := by
  intro x
  unfold Conntrack.scanEntry
  rw [hcur.lookup_of_not_mem hk]
  cases hv : m.lookup k with
  | none =>
    -- nothing to visit: `x = k` is missing on both sides
    by_cases hx : x = k
    · subst hx
      rw [hcur.lookup_of_not_mem hk, hv]
      rfl
    · rw [hcur x]
      simp [hx]
  | some v =>
    simp only [verdictOf, hcur.check_eq hm hv]
    by_cases hd : l.timeouts.dead l.cachedKTime m k v = true
    · simp only [hd, if_true]
      by_cases hx : x = k
      · subst hx
        simp [hv, hd, Option.filter_some]
      · rw [AList.lookup_erase_ne hx, hcur x]
        simp [hx]
    · simp only [hd, Bool.false_eq_true, if_false]
      by_cases hx : x = k
      · subst hx
        rw [hcur.lookup_of_not_mem hk, hv]
        simp [hd, Option.filter_some]
      · rw [hcur x]
        simp [hx]

/-- A pass over keys it has not visited yet, each once, keeps it swept. -/
theorem Swept.foldl (hm : RevConsistent m) :
    ∀ {order : List Key} {cur : CtMap} {vs : List Key},
      Swept l.timeouts l.cachedKTime m cur vs → (∀ k ∈ order, k ∉ vs) → order.Nodup →
        Swept l.timeouts l.cachedKTime m (order.foldl (Conntrack.scanEntry [l.check]) cur)
          (order ++ vs)
  | [], _, _, hcur, _, _ => hcur
  | k :: ks, _, vs, hcur, hfresh, hnd => by
    rw [List.nodup_cons] at hnd
    have h₁ := hcur.scanEntry hm (hfresh k List.mem_cons_self)
    have h₂ := Swept.foldl hm h₁ (fun k' hk' hmem => by
      rcases List.mem_cons.mp hmem with rfl | hmem
      · exact hnd.1 hk'
      · exact hfresh k' (List.mem_cons_of_mem _ hk') hmem) hnd.2
    intro x
    rw [List.foldl_cons, h₂ x]
    simp [or_left_comm]

end Pass

/-- The pass sweeps the whole map: visiting every key once leaves exactly the entries that are
not dead against the map it started from. -/
theorem scan_lookup (l : LivenessScanner) {m : CtMap} (hm : RevConsistent m) {order : List Key}
    (horder : order.Perm m.keys) (x : Key) :
    (scan [l.check] m order).lookup x = (m.lookup x).filter fun v => !l.timeouts.dead l.cachedKTime m x v := by
  have h₀ : Swept l.timeouts l.cachedKTime m m [] := fun x => by
    cases m.lookup x <;> simp [Option.filter_some]
  have h := Swept.foldl hm h₀ (fun _ _ h => List.not_mem_nil h) (horder.nodup_iff.mpr m.keys_nodup) x
  rw [List.append_nil] at h
  unfold scan
  rw [h]
  cases hx : m.lookup x with
  | none => rfl
  | some v =>
    -- a key of the map is visited
    have hmem : x ∈ order := horder.mem_iff.mpr (AList.mem_keys.mp (AList.lookup_isSome.mp (by simp [hx])))
    simp [hmem]

/-- A cleanup pass with the `LivenessScanner` at one kernel time, over a map whose forward entries
name reverse entries with keys of their own protocol, or nothing, visiting every entry once in any
order: it deletes exactly the entries that are dead against the map it started from, so that
another order gives the same map; an entry is expired exactly as `Timeouts.Expires` says; and
every forward entry left has its reverse entry, which was not expired at the pass's time. -/
theorem liveness_scan_deletes_dead (t : Timeouts) (now : Int64) (m : CtMap) (hm : RevConsistent m)
    (order : List Key) (horder : order.Perm m.keys) :
    (∀ x, (scan [(⟨t, now⟩ : LivenessScanner).check] m order).lookup x =
        (m.lookup x).filter fun v => !t.dead now m x v) ∧
      (∀ order' : List Key, order'.Perm m.keys → ∀ x,
        (scan [(⟨t, now⟩ : LivenessScanner).check] m order').lookup x =
          (scan [(⟨t, now⟩ : LivenessScanner).check] m order).lookup x) ∧
      (∀ proto v, (t.entryExpired now proto v).2 = true ↔ t.Expires now proto v) ∧
      ∀ k v, (scan [(⟨t, now⟩ : LivenessScanner).check] m order).lookup k = some v →
        v.type = typeNATForward →
          ∃ r, (scan [(⟨t, now⟩ : LivenessScanner).check] m order).lookup v.reverseNATKey = some r ∧
            (t.entryExpired now v.reverseNATKey.proto r).2 = false := by
  have hscan := scan_lookup ⟨t, now⟩ hm horder
  refine ⟨hscan, fun order' horder' x => ?_, entryExpired_iff t now, ?_⟩
  · rw [scan_lookup ⟨t, now⟩ hm horder' x, hscan x]
  · intro k v hk hf
    rw [hscan k] at hk
    obtain ⟨hv, hd⟩ := Option.filter_eq_some_iff.mp hk
    obtain ⟨hall, hproto⟩ := hm ⟨k, v⟩ (AList.mem_lookup_iff.mp hv) hf
    -- the forward entry is kept, so its reverse entry is there and not expired
    cases hr : m.lookup v.reverseNATKey with
    | none => simp [Timeouts.dead, hf, hr] at hd
    | some r =>
      have hrt : r.type = typeNATReverse := by simpa [hr] using hall
      have he : (t.entryExpired now k.proto r).2 = false := by
        simpa [Timeouts.dead, hf, hr] using hd
      refine ⟨r, ?_, by rw [hproto]; exact he⟩
      rw [hscan, hr]
      simp [Option.filter_some, dead_of_reverse hrt, hproto, he]

/-- The reverse entry of a TCP connection that was never established: created at 0, last seen at
50 s. -/
def tcpRevKey : Key := newKey protoTCP 0x0a000001 1234 0x0a000002 80

/-- See `tcpRevKey`. -/
def tcpRevValue : Value := newValueNATReverse 0 (50 * second) 0 {} {} 0 0x0a0000fe 80

/-- A forward entry with a TCP key naming that reverse entry. -/
def tcpFwdKey : Key := newKey protoTCP 0x0a000001 1234 0x0a0000fe 80

/-- The map of the two entries of one TCP connection. -/
def consistentMap : CtMap :=
  ((∅ : CtMap).insert tcpFwdKey (newValueNATForward 0 0 0 tcpRevKey)).insert tcpRevKey tcpRevValue

/-- A pass at 100 s with the default timeouts. -/
def passAt100 : LivenessScanner := ⟨defaultTimeouts, 100 * second⟩

theorem liveness_scan_deletes_dead_tcp :
    RevConsistent consistentMap ∧ [tcpFwdKey, tcpRevKey].Perm consistentMap.keys ∧
      (∀ x, (scan [passAt100.check] consistentMap [tcpFwdKey, tcpRevKey]).lookup x =
        (consistentMap.lookup x).filter fun v => !defaultTimeouts.dead (100 * second) consistentMap x v) :=
  have hm : RevConsistent consistentMap := by decide
  have ho : [tcpFwdKey, tcpRevKey].Perm consistentMap.keys := by decide
  ⟨hm, ho, (liveness_scan_deletes_dead defaultTimeouts (100 * second) consistentMap hm _ ho).1⟩

/-! ## Forward and reverse keys of different protocols -/

/-- A forward entry whose key has the UDP protocol, naming that reverse entry. -/
def udpFwdKey : Key := newKey protoUDP 0x0a000001 1234 0x0a0000fe 80

/-- See `udpFwdKey`. -/
def udpFwdValue : Value := newValueNATForward 0 0 0 tcpRevKey

/-- The map of the two entries. -/
def mixedMap : CtMap := ((∅ : CtMap).insert udpFwdKey udpFwdValue).insert tcpRevKey tcpRevValue

/-- At 100 s the reverse entry is 50 s idle: expired under TCP's pre-established timeout of 20 s,
but not under the UDP timeout of 60 s with which its forward entry judges it. Visited after the
forward entry, it is deleted and the forward entry is kept without it; visited before it, both are
deleted. -/
theorem liveness_scan_mixed_protocols :
    (scan [passAt100.check] mixedMap [udpFwdKey, tcpRevKey]).lookup udpFwdKey = some udpFwdValue ∧
      (scan [passAt100.check] mixedMap [udpFwdKey, tcpRevKey]).lookup tcpRevKey = none ∧
      (scan [passAt100.check] mixedMap [tcpRevKey, udpFwdKey]).lookup udpFwdKey = none := by
  decide

end Felix.Bpf.Conntrack
