import Felix.Ipsets.Reachable

/-!
# Resync and the kernel's IP sets

`ApplyUpdates` resyncs with the kernel when asked to, then writes the updates of the dirty
sets. A resync compares only the sets that `ipset list` shows: an IP set that Felix holds in
delta mode and that another process has destroyed is not listed, so the resync finds nothing
wrong with it, nothing marks it dirty, and no update recreates it
(`destroyed_set_not_recreated`).
-/

namespace Felix.Ipsets


/-! ## A destroyed set stays destroyed -/

/-- Felix creates IP set `s:abc` with member `10.0.0.1` and programs it; another process
destroys its main set; Felix is asked to resync. -/
def destroyedElsewhere : List Event :=
  [.addOrReplaceIPSet ⟨"s:abc", .hashIP, 1048576⟩ ["10.0.0.1"], .applyUpdates,
   .kernelChanged (·.erase "cali40s:abc"), .queueResync]

/-- After the run, the next `ApplyUpdates` resyncs and its update goes through at the first
attempt, yet the kernel has no set for `s:abc`, which is needed and has a member. -/
theorem destroyed_set_not_recreated :
    ∃ s₀ k₀ s k s' k',
      runFrom (newIPSets resyncConfig, ∅) (destroyedElsewhere.take 2) = .ok (s₀, k₀) ∧
      (k₀.lookup "cali40s:abc").map (·.members.toList) = some ["10.0.0.1"] ∧
      runFrom (newIPSets resyncConfig, ∅) destroyedElsewhere = .ok (s, k) ∧
      s.resyncRequired = true ∧
      s.applyUpdatesAttempt k = .ok (s', k', true) ∧
      s.applyUpdates k = .ok (s', k') ∧
      s'.ipSetNeeded "s:abc" = true ∧
      (s'.getMembers "s:abc").toOption.map IterSet.toList = some ["10.0.0.1"] ∧
      k'.lookup (resyncConfig.nameForMainIPSet "s:abc") = none :=
  ⟨_, _, _, _, _, _, rfl, by decide, rfl, rfl, rfl, rfl, rfl, by decide, by decide⟩

end Felix.Ipsets
