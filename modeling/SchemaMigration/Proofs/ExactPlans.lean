import SchemaMigration.Proofs.Planning

/-!
# What a plan comes to

Planning ends in one of three ways (`Registry.PlansTo`): the database is ahead, a version is missing
below a completed one, or the steps that are not completed are planned.  Which of them it is, and
with which versions, is said here by what is largest or lowest among the versions, and nothing is
said of the scans that planning makes.  `Registry.plan_exact` shows that planning ends in these ways
and no others, and that completed versions that are not registered count for nothing as long as the
database is not ahead.

The scans stop at the first step with a property.  Steps ascend, so the version of that step is the
lowest with the property (`Registry.lowest_of_split`), which is all that is used of them.
-/
namespace SchemaMigration

namespace Registry

variable {r : Registry} {completed : VersionSet} {policy : Policy}

/-- `missing` is the lowest registered version that is not completed, and `found` the lowest
registered version above it that is. -/
structure IsGap (r : Registry) (completed : VersionSet) (missing found : Version) : Prop where
  lowest_missing : Version.Lowest (fun v => v ∈ r.versions ∧ v ∉ completed) missing
  lowest_found : Version.Lowest (fun v => v ∈ r.versions ∧ v ∈ completed ∧ missing < v) found

/-- The ways in which planning can end. -/
inductive PlansTo (r : Registry) (completed : VersionSet) :
    Policy → Except MigrationError (List Step) → Prop
  /-- The newest completed version is newer than all registered ones. -/
  | ahead {policy : Policy} {database : Version}
    (hnewest : Version.Highest (· ∈ completed) database) (hahead : r.newest < database) :
    PlansTo r completed policy (.error (.databaseAhead database r.newest))
  /-- All steps that are not completed are to run, in the order in which they are registered. -/
  | pending {policy : Policy} (hbehind : ∀ v ∈ completed, ¬ r.newest < v)
    (hfree : policy = .contiguous → r.GapFree completed) :
    PlansTo r completed policy (.ok (r.remaining completed))
  /-- The policy asks for an initial segment, and the completed versions are none. -/
  | gap {missing found : Version} (hbehind : ∀ v ∈ completed, ¬ r.newest < v)
    (hgap : r.IsGap completed missing found) :
    PlansTo r completed .contiguous (.error (.historyGap missing found))

/-- The completed versions that are registered. -/
def known (r : Registry) (completed : VersionSet) : VersionSet :=
  ⟨completed.toList.filter (· ∈ r.versions), completed.ascending.sublist List.filter_sublist⟩

theorem mem_known {v : Version} : v ∈ r.known completed ↔ v ∈ completed ∧ v ∈ r.versions :=
  List.mem_filter.trans (and_congr_right fun _ => decide_eq_true_iff)

/-! ## Scans find what is lowest -/

/-- If no step before a step has a property of versions, its own version is the lowest registered
one with the property. -/
theorem lowest_of_split {before after : List Step} {s : Step} {p : Version → Prop}
    (hsplit : r.steps.toList = before ++ s :: after) (hs : p s.version)
    (hbefore : ∀ t ∈ before, ¬ p t.version) :
    Version.Lowest (fun v => v ∈ r.versions ∧ p v) s.version := by
  have hasc := r.ascending
  rw [hsplit, List.pairwise_append, List.pairwise_cons] at hasc
  obtain ⟨-, ⟨hafter, -⟩, -⟩ := hasc
  have hmem : s ∈ r.steps.toList := hsplit ▸ List.mem_append_right before List.mem_cons_self
  refine ⟨⟨List.mem_map_of_mem hmem, hs⟩, ?_⟩
  rintro v ⟨hv, hpv⟩ hlt
  obtain ⟨t, ht, rfl⟩ := List.mem_map.mp hv
  rw [hsplit] at ht
  rcases List.mem_append.mp ht with ht | ht
  · exact hbefore t ht hpv
  rcases List.mem_cons.mp ht with rfl | ht
  · exact Version.lt_irrefl _ hlt
  · exact Version.lt_asymm hlt (hafter t ht)

/-- The steps up to the first that is not completed, that step, and those after it. -/
theorem split_at_pending {first : Step} {rest : List Step}
    (h : r.steps.toList.dropWhile (fun s => s.version ∈ completed) = first :: rest) :
    ∃ before, r.steps.toList = before ++ first :: rest ∧
      (∀ s ∈ before, s.version ∈ completed) ∧ first.version ∉ completed := by
  have hsplit := List.takeWhile_append_dropWhile (p := fun s : Step => s.version ∈ completed)
    (l := r.steps.toList)
  rw [h] at hsplit
  refine ⟨_, hsplit.symm, fun s hs => ?_, ?_⟩
  · exact of_decide_eq_true
      (List.mem_takeWhile_imp (p := fun s : Step => decide (s.version ∈ completed)) hs)
  · have hhead := List.head?_dropWhile_not (fun s : Step => s.version ∈ completed) r.steps.toList
    rw [h] at hhead
    exact of_decide_eq_false hhead

/-- What is reported as a gap is one. -/
theorem isGap_of_select {e : MigrationError} (h : r.select completed .contiguous = .error e) :
    ∃ missing found, e = .historyGap missing found ∧ r.IsGap completed missing found := by
  simp only [select] at h
  split at h
  · cases h
  next first rest hrest =>
  split at h
  · next found hfound =>
    cases h
    obtain ⟨before, hsplit, hdone, hopen⟩ := split_at_pending hrest
    obtain ⟨hcompleted, skipped, after, rfl, hskipped⟩ := List.find?_eq_some_iff_append.mp hfound
    have hasc := r.ascending
    rw [hsplit, List.pairwise_append, List.pairwise_cons] at hasc
    obtain ⟨-, ⟨habove, -⟩, hbelow⟩ := hasc
    refine ⟨first.version, found.version, rfl, ?_, ?_⟩
    · exact lowest_of_split hsplit hopen fun t ht hnot => hnot (hdone t ht)
    · -- completed steps before `found` stand below the missing one
      have hlater : r.steps.toList = (before ++ first :: skipped) ++ found :: after := by
        rw [hsplit, List.append_assoc, List.cons_append]
      refine lowest_of_split hlater ⟨of_decide_eq_true hcompleted, ?_⟩ ?_
      · exact habove found (List.mem_append_right skipped List.mem_cons_self)
      · rintro t ht ⟨htc, hlt⟩
        rcases List.mem_append.mp ht with ht | ht
        · exact Version.lt_asymm hlt (hbelow t ht first List.mem_cons_self)
        rcases List.mem_cons.mp ht with rfl | ht
        · exact hopen htc
        · simpa [htc] using hskipped t ht
  · cases h

theorem overtakenBy_eq_some {database latest : Version}
    (h : r.overtakenBy completed = some (database, latest)) :
    Version.Highest (· ∈ completed) database ∧ latest = r.newest ∧ latest < database := by
  unfold overtakenBy at h
  split at h
  · cases h
  next newest hnewest =>
  dsimp only at h
  split at h
  · next hlt =>
    cases h
    exact ⟨VersionSet.max?_eq_some hnewest, rfl, hlt⟩
  · cases h

/-! ## The ways exclude each other -/

theorem IsGap.not_gapFree {missing found : Version} (h : r.IsGap completed missing found) :
    ¬ r.GapFree completed := by
  obtain ⟨⟨⟨hmissing, hopen⟩, -⟩, ⟨⟨hfound, hdone, hlt⟩, -⟩⟩ := h
  obtain ⟨s, hs, rfl⟩ := List.mem_map.mp hmissing
  obtain ⟨t, ht, rfl⟩ := List.mem_map.mp hfound
  exact fun hfree => hopen (hfree s hs t ht hlt hdone)

theorem IsGap.unique {missing found missing' found' : Version}
    (h : r.IsGap completed missing found) (h' : r.IsGap completed missing' found') :
    missing = missing' ∧ found = found' := by
  have hmissing := h.lowest_missing.unique h'.lowest_missing
  subst hmissing
  exact ⟨rfl, h.lowest_found.unique h'.lowest_found⟩

/-- There is one way at most in which planning can end. -/
theorem PlansTo.unique {result result' : Except MigrationError (List Step)}
    (h : r.PlansTo completed policy result) (h' : r.PlansTo completed policy result') :
    result = result' := by
  cases h with
  | ahead hnewest hahead =>
    cases h' with
    | ahead hnewest' _ => rw [hnewest.unique hnewest']
    | pending hbehind _ => exact (hbehind _ hnewest.1 hahead).elim
    | gap hbehind _ => exact (hbehind _ hnewest.1 hahead).elim
  | pending hbehind hfree =>
    cases h' with
    | ahead hnewest hahead => exact (hbehind _ hnewest.1 hahead).elim
    | pending => rfl
    | gap _ hgap => exact (hgap.not_gapFree (hfree rfl)).elim
  | gap hbehind hgap =>
    cases h' with
    | ahead hnewest hahead => exact (hbehind _ hnewest.1 hahead).elim
    | pending _ hfree => exact (hgap.not_gapFree (hfree rfl)).elim
    | gap _ hgap' =>
      obtain ⟨rfl, rfl⟩ := hgap.unique hgap'
      rfl

/-! ## Planning -/

theorem plan_plansTo (r : Registry) (completed : VersionSet) (policy : Policy) :
    r.PlansTo completed policy (r.plan policy completed) := by
  cases hplan : r.plan policy completed with
  | ok pending =>
    obtain ⟨hbehind, hfree, rfl⟩ := plan_eq_ok_iff.mp hplan
    exact .pending hbehind hfree
  | error e =>
    cases hover : r.overtakenBy completed with
    | some p =>
      obtain ⟨database, latest⟩ := p
      obtain ⟨hnewest, rfl, hahead⟩ := overtakenBy_eq_some hover
      simp only [plan, hover, Except.error.injEq] at hplan
      subst hplan
      exact .ahead hnewest hahead
    | none =>
      simp only [plan, hover] at hplan
      cases policy with
      | completedSet => cases hplan
      | contiguous =>
        obtain ⟨missing, found, rfl, hgap⟩ := isGap_of_select hplan
        exact .gap (overtakenBy_eq_none.mp hover) hgap

/-- A plan under the policy that asks for an initial segment is what is left of the registry. -/
theorem plan_suffix {pending : List Step} (h : r.plan .contiguous completed = .ok pending) :
    pending <:+ r.steps.toList := by
  have hbehind := overtakenBy_eq_none.mpr (plan_eq_ok_iff.mp h).1
  simp only [plan, hbehind, select] at h
  split at h
  · cases h
    exact List.nil_suffix
  next first rest hrest =>
  split at h
  · cases h
  · cases h
    rw [← hrest]
    exact List.dropWhile_suffix _

/-! ## Versions that are not registered -/

theorem mem_known_of_registered {s : Step} (hs : s ∈ r.steps.toList) :
    s.version ∈ r.known completed ↔ s.version ∈ completed :=
  mem_known.trans (and_iff_left (List.mem_map_of_mem hs))

theorem remaining_known (r : Registry) (completed : VersionSet) :
    r.remaining (r.known completed) = r.remaining completed :=
  List.filter_congr fun _ hs => decide_eq_decide.mpr (not_congr (mem_known_of_registered hs))

theorem gapFree_known : r.GapFree (r.known completed) ↔ r.GapFree completed := by
  constructor
  · intro h s hs t ht hlt htc
    exact (mem_known_of_registered hs).mp (h s hs t ht hlt ((mem_known_of_registered ht).mpr htc))
  · intro h s hs t ht hlt htc
    exact (mem_known_of_registered hs).mpr (h s hs t ht hlt ((mem_known_of_registered ht).mp htc))

theorem IsGap.of_known {missing found : Version}
    (h : r.IsGap (r.known completed) missing found) : r.IsGap completed missing found := by
  refine ⟨h.lowest_missing.congr fun v => ?_, h.lowest_found.congr fun v => ?_⟩
  · rw [mem_known]
    exact and_congr_right fun hv => not_congr (and_iff_left hv)
  · rw [mem_known]
    exact and_congr_right fun hv => and_congr_left fun _ => and_iff_left hv

/-- **Completed versions that are not registered count for nothing** unless they put the database
ahead. -/
theorem PlansTo.of_known {result : Except MigrationError (List Step)}
    (hbehind : ∀ v ∈ completed, ¬ r.newest < v)
    (h : r.PlansTo (r.known completed) policy result) : r.PlansTo completed policy result := by
  cases h with
  | ahead hnewest hahead => exact (hbehind _ (mem_known.mp hnewest.1).1 hahead).elim
  | pending _ hfree =>
    rw [remaining_known]
    exact .pending hbehind fun hpolicy => gapFree_known.mp (hfree hpolicy)
  | gap _ hgap => exact .gap hbehind hgap.of_known

/-- **What a plan comes to.** -/
theorem plan_exact (r : Registry) (completed : VersionSet) (policy : Policy) :
    (∀ result, r.plan policy completed = result ↔ r.PlansTo completed policy result) ∧
      (∀ pending, r.plan .contiguous completed = .ok pending →
        r.plan .completedSet completed = .ok pending ∧ pending <:+ r.steps.toList) ∧
      ((∀ v ∈ completed, ¬ r.newest < v) →
        r.plan policy (r.known completed) = r.plan policy completed) := by
  have hplan := r.plan_plansTo completed policy
  refine ⟨fun result => ⟨?_, fun h => hplan.unique h⟩, fun pending h => ⟨?_, plan_suffix h⟩, ?_⟩
  · rintro rfl
    exact hplan
  · obtain ⟨hbehind, -, hpending⟩ := plan_eq_ok_iff.mp h
    exact plan_eq_ok_iff.mpr ⟨hbehind, nofun, hpending⟩
  · intro hbehind
    exact ((r.plan_plansTo (r.known completed) policy).of_known hbehind).unique hplan

end Registry
end SchemaMigration
