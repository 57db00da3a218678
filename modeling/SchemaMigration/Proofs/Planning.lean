import SchemaMigration.Plan
import Mathlib.Data.List.TakeWhile

/-!
# The algebra of plans

A plan that exists consists of the registered steps that are not completed, in ascending order,
under either policy (`Registry.plan_eq_ok_iff`).  The policy decides only whether there is one: a plan for
completed versions that have to be an initial segment exists when no completed version stands above
a pending one.

From this follows the law that resuming rests on (`Registry.plan_advance`): once the first steps of
a plan are completed too, the plan is what was left of it.
-/
namespace SchemaMigration

namespace Version

theorem lt_irrefl (v : Version) : ¬ v < v := Nat.lt_irrefl v.number

theorem lt_asymm {v w : Version} (h : v < w) : ¬ w < v := Nat.lt_asymm h

theorem lt_trichotomy (v w : Version) : v < w ∨ v = w ∨ w < v := by
  rcases Nat.lt_trichotomy v.number w.number with h | h | h
  · exact Or.inl h
  · exact Or.inr (Or.inl (Version.ext h))
  · exact Or.inr (Or.inr h)

theorem lt_of_not_lt_of_ne {v w : Version} (h : ¬ v < w) (hne : v ≠ w) : w < v :=
  ((lt_trichotomy v w).resolve_left h).resolve_left hne

variable {p : Version → Prop} {v w : Version}

/-- `v` has the property, and no lower version has. -/
def Lowest (p : Version → Prop) (v : Version) : Prop :=
  p v ∧ ∀ w, p w → ¬ w < v

/-- `v` has the property, and no higher version has. -/
def Highest (p : Version → Prop) (v : Version) : Prop :=
  p v ∧ ∀ w, p w → ¬ v < w

theorem Lowest.congr {q : Version → Prop} (h : Lowest p v) (hpq : ∀ w, p w ↔ q w) : Lowest q v :=
  ⟨(hpq v).mp h.1, fun w hw => h.2 w ((hpq w).mpr hw)⟩

theorem Lowest.unique (h : Lowest p v) (h' : Lowest p w) : v = w := by
  by_cases hne : v = w
  · exact hne
  · exact (h'.2 v h.1 (lt_of_not_lt_of_ne (h.2 w h'.1) (Ne.symm hne))).elim

theorem Highest.unique (h : Highest p v) (h' : Highest p w) : v = w := by
  by_cases hne : v = w
  · exact hne
  · exact (h.2 w h'.1 (lt_of_not_lt_of_ne (h'.2 v h.1) (Ne.symm hne))).elim

end Version

theorem nodup_of_ascending {l : List Version} (h : l.Pairwise (· < ·)) : l.Nodup := by
  refine h.imp fun hab he => ?_
  subst he
  exact Version.lt_irrefl _ hab

namespace VersionSet

theorem max?_eq_none {s : VersionSet} : s.max? = none ↔ ∀ v, v ∉ s := by
  rw [max?, List.getLast?_eq_none_iff]
  exact List.eq_nil_iff_forall_not_mem

/-- The largest member is a member, and none is larger. -/
theorem max?_eq_some {s : VersionSet} {m : Version} (h : s.max? = some m) :
    m ∈ s ∧ ∀ v ∈ s, ¬ m < v := by
  obtain ⟨init, hinit⟩ := List.getLast?_eq_some_iff.mp h
  refine ⟨show m ∈ s.toList from hinit ▸ List.mem_append_right _ (List.mem_singleton_self m), ?_⟩
  intro v hv hlt
  have hasc := s.ascending
  rw [hinit, List.pairwise_append] at hasc
  rcases List.mem_append.mp (hinit ▸ hv : v ∈ init ++ [m]) with hv | hv
  · exact Version.lt_asymm hlt (hasc.2.2 v hv m (List.mem_singleton_self m))
  · exact Version.lt_irrefl m (List.mem_singleton.mp hv ▸ hlt)

/-- A set has a largest member unless it is empty. -/
theorem max?_eq_some_iff {s : VersionSet} {m : Version} :
    s.max? = some m ↔ Version.Highest (· ∈ s) m := by
  constructor
  · exact fun h => max?_eq_some h
  · intro h
    cases hmax : s.max? with
    | none => exact (max?_eq_none.mp hmax m h.1).elim
    | some n => rw [h.unique (max?_eq_some hmax)]

/-- Sets with the same members are equal. -/
theorem ext {s t : VersionSet} (h : ∀ v, v ∈ s ↔ v ∈ t) : s = t := by
  obtain ⟨l, hl⟩ := s
  obtain ⟨k, hk⟩ := t
  have hperm : l.Perm k :=
    (List.perm_ext_iff_of_nodup (nodup_of_ascending hl) (nodup_of_ascending hk)).mpr h
  have heq : l = k := hperm.eq_of_pairwise (fun a b _ _ hab hba => (Version.lt_asymm hab hba).elim)
    hl hk
  subst heq
  rfl

end VersionSet

namespace Registry

variable {r : Registry} {completed : VersionSet} {policy : Policy} {pending : List Step}

theorem versions_ascending (r : Registry) : r.versions.Pairwise (· < ·) :=
  List.pairwise_map.mpr r.ascending

/-- The versions up to somewhere behind the first `k` steps. -/
theorem versions_take {k : Nat} {before rest : List Step}
    (h : r.steps.toList.drop k = before ++ rest) :
    r.versions.take (k + before.length) = r.versions.take k ++ before.map (·.version) := by
  rw [versions, ← List.map_take, ← List.map_take, List.take_add, h, List.take_left',
    List.map_append]
  rfl

/-- The version of a step is not among those before it. -/
theorem version_not_mem_take {k : Nat} {before rest : List Step} {t : Step}
    (h : r.steps.toList.drop k = before ++ t :: rest) :
    t.version ∉ r.versions.take (k + before.length) := by
  have hnodup := nodup_of_ascending r.versions_ascending
  have hdrop : r.versions.drop (k + before.length) = t.version :: rest.map (·.version) := by
    rw [versions, ← List.map_drop, ← List.drop_drop, h, List.drop_left', List.map_cons]
    rfl
  rw [← List.take_append_drop (k + before.length) r.versions, hdrop, List.nodup_append] at hnodup
  intro hmem
  exact hnodup.2.2 _ hmem _ List.mem_cons_self rfl

/-- The newest registered version, or version 0 in a registry without steps. -/
def newest (r : Registry) : Version :=
  r.latest?.getD .zero

theorem not_newest_lt {s : Step} (h : s ∈ r.steps.toList) : ¬ r.newest < s.version := by
  have hmem : s.version ∈ r.versions := List.mem_map_of_mem h
  unfold newest latest?
  cases hl : r.versions.getLast? with
  | none => exact absurd (List.getLast?_eq_none_iff.mp hl ▸ hmem) List.not_mem_nil
  | some m => exact (VersionSet.max?_eq_some (s := ⟨r.versions, r.versions_ascending⟩) hl).2 _ hmem

/-- The database is not ahead when no completed version is newer than all registered ones. -/
theorem overtakenBy_eq_none :
    r.overtakenBy completed = none ↔ ∀ v ∈ completed, ¬ r.newest < v := by
  unfold overtakenBy
  cases hm : completed.max? with
  | none => simp [VersionSet.max?_eq_none.mp hm]
  | some m =>
    obtain ⟨hmem, hmax⟩ := VersionSet.max?_eq_some hm
    change (if r.newest < m then some (m, r.newest) else none) = none ↔ _
    by_cases hlt : r.newest < m
    · rw [if_pos hlt]
      exact ⟨fun h => (Option.some_ne_none _ h).elim, fun h => (h m hmem hlt).elim⟩
    · rw [if_neg hlt]
      refine ⟨fun _ v hv hv' => ?_, fun _ => rfl⟩
      by_cases hvm : v = m
      · exact hlt (hvm ▸ hv')
      · exact hlt (Version.lt_trans hv' (Version.lt_of_not_lt_of_ne (hmax v hv) (Ne.symm hvm)))

/-- No completed version stands above a registered one that is not completed. -/
def GapFree (r : Registry) (completed : VersionSet) : Prop :=
  ∀ s ∈ r.steps.toList, ∀ t ∈ r.steps.toList,
    s.version < t.version → t.version ∈ completed → s.version ∈ completed

/-- The registered steps that are not completed. -/
def remaining (r : Registry) (completed : VersionSet) : List Step :=
  r.steps.toList.filter fun s => s.version ∉ completed

theorem select_contiguous :
    r.select completed .contiguous = .ok pending ↔
      r.GapFree completed ∧ pending = r.remaining completed := by
  have hsplit := List.takeWhile_append_dropWhile (p := fun s : Step => s.version ∈ completed)
    (l := r.steps.toList)
  have hdone : ∀ s ∈ r.steps.toList.takeWhile fun s => s.version ∈ completed,
      s.version ∈ completed := fun s hs => of_decide_eq_true
        (List.mem_takeWhile_imp (p := fun s : Step => decide (s.version ∈ completed)) hs)
  unfold select
  cases hrest : r.steps.toList.dropWhile fun s => s.version ∈ completed with
  | nil =>
    rw [hrest, List.append_nil] at hsplit
    have hall : ∀ s ∈ r.steps.toList, s.version ∈ completed := hsplit ▸ hdone
    have hnil : r.remaining completed = [] :=
      List.filter_eq_nil_iff.mpr fun s hs => by simp [hall s hs]
    simp only [Except.ok.injEq, hnil]
    exact ⟨fun h => ⟨fun s hs _ _ _ _ => hall s hs, h.symm⟩, fun h => h.2.symm⟩
  | cons first rest =>
    -- `first` is the lowest step that is not completed, so a completed one above it is a gap
    rw [hrest] at hsplit
    have hfirst : first.version ∉ completed := by
      have := List.head?_dropWhile_not (fun s : Step => s.version ∈ completed) r.steps.toList
      rw [hrest] at this
      exact of_decide_eq_false this
    have hasc := r.ascending
    rw [← hsplit, List.pairwise_append, List.pairwise_cons] at hasc
    obtain ⟨-, ⟨habove, -⟩, hbelow⟩ := hasc
    have hmem : ∀ s, s ∈ r.steps.toList ↔ s ∈ r.steps.toList.takeWhile (·.version ∈ completed) ∨
        s ∈ first :: rest := fun s => by rw [← List.mem_append, hsplit]
    cases hfound : rest.find? fun s => s.version ∈ completed with
    | some found =>
      have hin : found ∈ rest := List.mem_of_find?_eq_some hfound
      have hdone : found.version ∈ completed := of_decide_eq_true
        (List.find?_some (p := fun s : Step => decide (s.version ∈ completed)) hfound)
      simp only [hfound, reduceCtorEq, false_iff]
      refine fun h => hfirst ?_
      exact h.1 first ((hmem _).mpr (Or.inr List.mem_cons_self)) found
        ((hmem _).mpr (Or.inr (List.mem_cons_of_mem _ hin))) (habove found hin) hdone
    | none =>
      have hopen : ∀ s ∈ first :: rest, s.version ∉ completed := by
        intro s hs
        rcases List.mem_cons.mp hs with rfl | hs
        · exact hfirst
        · simpa using List.find?_eq_none.mp hfound s hs
      have hrem : r.remaining completed = first :: rest := by
        rw [remaining, ← hsplit, List.filter_append,
          List.filter_eq_nil_iff.mpr fun s hs => by simp [hdone s hs],
          List.filter_eq_self.mpr fun s hs => by simp [hopen s hs], List.nil_append]
      simp only [hfound, Except.ok.injEq, hrem]
      refine ⟨fun h => ⟨fun s hs t ht hlt htc => ?_, h.symm⟩, fun h => h.2.symm⟩
      rcases (hmem t).mp ht with ht | ht
      · rcases (hmem s).mp hs with hs | hs
        · exact hdone s hs
        · exact (Version.lt_asymm hlt (hbelow t ht s hs)).elim
      · exact (hopen t ht htc).elim

/-- **What a plan is.**  It exists if the database is not ahead and the policy, if it asks for one,
finds no gap; it consists of the registered steps that are not completed. -/
theorem plan_eq_ok_iff :
    r.plan policy completed = .ok pending ↔
      (∀ v ∈ completed, ¬ r.newest < v) ∧ (policy = .contiguous → r.GapFree completed) ∧
        pending = r.remaining completed := by
  rw [← overtakenBy_eq_none, plan]
  cases r.overtakenBy completed with
  | some p => simp
  | none =>
    cases policy with
    | contiguous => simp [select_contiguous]
    | completedSet => simp [select, remaining, eq_comm]

theorem remaining_sublist (r : Registry) (completed : VersionSet) :
    (r.remaining completed).Sublist r.steps.toList :=
  List.filter_sublist

theorem mem_remaining {s : Step} :
    s ∈ r.remaining completed ↔ s ∈ r.steps.toList ∧ s.version ∉ completed := by
  simp [remaining]

/-- Planned versions are registered, and ascending. -/
theorem plan_ascending (h : r.plan policy completed = .ok pending) :
    pending.Pairwise fun s t => s.version < t.version := by
  obtain ⟨-, -, rfl⟩ := plan_eq_ok_iff.mp h
  exact r.ascending.sublist (r.remaining_sublist completed)

theorem plan_mem (h : r.plan policy completed = .ok pending) {s : Step} (hs : s ∈ pending) :
    s ∈ r.steps.toList := by
  obtain ⟨-, -, rfl⟩ := plan_eq_ok_iff.mp h
  exact (mem_remaining.mp hs).1

/-- **The law of resuming.**  When the first `k` steps of a plan are completed too, the plan is what
was left of it. -/
theorem plan_advance {completed' : VersionSet} {k : Nat}
    (h : r.plan policy completed = .ok pending)
    (hmem : ∀ v, v ∈ completed' ↔ v ∈ completed ∨ v ∈ (pending.take k).map (·.version)) :
    r.plan policy completed' = .ok (pending.drop k) := by
  have hasc := plan_ascending h
  obtain ⟨hahead, hgap, rfl⟩ := plan_eq_ok_iff.mp h
  have hsplit := List.take_append_drop k (r.remaining completed)
  rw [← hsplit, List.pairwise_append] at hasc
  obtain ⟨-, -, hbelow⟩ := hasc
  have hreg : ∀ s ∈ (r.remaining completed).take k, s ∈ r.steps.toList ∧ s.version ∉ completed :=
    fun s hs => mem_remaining.mp (List.mem_of_mem_take hs)
  refine plan_eq_ok_iff.mpr ⟨?_, ?_, ?_⟩
  · -- planned steps are registered, so they do not put the database ahead
    intro v hv
    rcases (hmem v).mp hv with hv | hv
    · exact hahead v hv
    · obtain ⟨s, hs, rfl⟩ := List.mem_map.mp hv
      exact not_newest_lt (hreg s hs).1
  · intro hpol s hs t ht hlt htc
    rw [hmem]
    rcases (hmem _).mp htc with htc | htc
    · exact Or.inl (hgap hpol s hs t ht hlt htc)
    · by_cases hsc : s.version ∈ completed
      · exact Or.inl hsc
      · -- below a step of the plan, a step that is not completed is of the plan, and earlier in it
        refine Or.inr (List.mem_map_of_mem ?_)
        obtain ⟨t', ht', he⟩ := List.mem_map.mp htc
        have hsr : s ∈ (r.remaining completed).take k ++ (r.remaining completed).drop k :=
          hsplit.symm ▸ mem_remaining.mpr ⟨hs, hsc⟩
        rcases List.mem_append.mp hsr with hsr | hsr
        · exact hsr
        · exact (Version.lt_asymm hlt (he ▸ hbelow t' ht' s hsr)).elim
  · have hfilter : r.remaining completed' = (r.remaining completed).filter
        fun s => s.version ∉ ((r.remaining completed).take k).map (·.version) := by
      rw [remaining, remaining, List.filter_filter]
      refine List.filter_congr fun s _ => ?_
      rw [← Bool.decide_and, decide_eq_decide, hmem]
      exact ⟨fun h => ⟨fun h' => h (Or.inr h'), fun h' => h (Or.inl h')⟩,
        fun h h' => h'.elim h.2 h.1⟩
    have hdone : ((r.remaining completed).take k).filter
        (fun s => s.version ∉ ((r.remaining completed).take k).map (·.version)) = [] :=
      List.filter_eq_nil_iff.mpr fun s hs hout => of_decide_eq_true hout (List.mem_map_of_mem hs)
    have hopen : ((r.remaining completed).drop k).filter
        (fun s => s.version ∉ ((r.remaining completed).take k).map (·.version)) =
          (r.remaining completed).drop k := by
      refine List.filter_eq_self.mpr fun s hs => decide_eq_true fun hin => ?_
      obtain ⟨t, ht, he⟩ := List.mem_map.mp hin
      exact Version.lt_irrefl _ (he ▸ hbelow t ht s hs)
    have hleft := congrArg (List.filter fun s : Step =>
      decide (s.version ∉ ((r.remaining completed).take k).map (·.version))) hsplit
    rw [List.filter_append, hdone, hopen, List.nil_append] at hleft
    rw [hfilter, hleft]

/-- Planning fails for two reasons only. -/
theorem plan_error {e : MigrationError} (h : r.plan policy completed = .error e) :
    (∃ missing found, e = .historyGap missing found) ∨
      ∃ database latest, e = .databaseAhead database latest := by
  unfold plan at h
  split at h
  · cases h
    exact Or.inr ⟨_, _, rfl⟩
  · cases policy with
    | completedSet => cases h
    | contiguous =>
      simp only [select] at h
      split at h
      · cases h
      · split at h
        · cases h
          exact Or.inl ⟨_, _, rfl⟩
        · cases h

/-- With nothing completed, everything is planned. -/
theorem plan_empty (hnone : ∀ v, v ∉ completed) :
    r.plan policy completed = .ok r.steps.toList := by
  refine plan_eq_ok_iff.mpr ⟨fun v hv => (hnone v hv).elim, fun _ s _ t _ _ ht => (hnone _ ht).elim,
    (List.filter_eq_self.mpr fun s _ => decide_eq_true (hnone _)).symm⟩

/-- When the first `k` versions are completed and no others, the steps after them are planned. -/
theorem plan_initial {k : Nat} (hmem : ∀ v, v ∈ completed ↔ v ∈ r.versions.take k) :
    r.plan policy completed = .ok (r.steps.toList.drop k) := by
  have hstart : r.plan policy .empty = .ok r.steps.toList := plan_empty fun _ => List.not_mem_nil
  refine plan_advance hstart fun v => (hmem v).trans ?_
  rw [versions, List.map_take]
  exact ⟨Or.inr, fun h => h.resolve_left List.not_mem_nil⟩

end Registry
end SchemaMigration
