import SchemaMigration.Proofs.Planning

/-!
# Declared steps

A list of steps is declared one by one, each behind those before it.  They form a registry if every
step has a description that shows something and versions ascend strictly (`Registry.InOrder`);
otherwise the first step that breaks a rule is reported (`Registry.Breaks`), and steps declared
after it are not looked at (`Registry.ofSteps_exact`).

That versions ascend is what finding them by halving rests on: steps below one with a lower version
have lower versions, so the half that is left alone does not hold the version asked for
(`Registry.search_eq_some_iff`).
-/
namespace SchemaMigration

/-- Some character of the description is not blank. -/
def Step.IsDescribed (s : Step) : Prop :=
  ∃ c ∈ s.description.toList, Text.isBlank c = false

theorem Step.isDescribed_iff {s : Step} :
    s.IsDescribed ↔ Text.isAllBlank s.description.toList = false := by
  rw [← Bool.not_eq_true, Text.isAllBlank_iff]
  simp [IsDescribed]

namespace Registry

/-- Steps as they should be declared: all described, in strictly ascending order of versions. -/
structure InOrder (steps : List Step) : Prop where
  described : ∀ s ∈ steps, s.IsDescribed
  ascending : steps.Pairwise fun s t => s.version < t.version

/-- What is wrong with declaring the step `s` behind the steps `before`.  A missing description
comes first; the version is compared with that of the step just before. -/
inductive Breaks (before : List Step) (s : Step) : RegistryFlaw → Prop
  | blank (h : ¬ s.IsDescribed) : Breaks before s (.blankDescription s.version)
  | twice {last : Step} (h : s.IsDescribed) (hlast : before.getLast? = some last)
    (heq : s.version = last.version) : Breaks before s (.declaredTwice s.version)
  | unordered {last : Step} (h : s.IsDescribed) (hlast : before.getLast? = some last)
    (hlt : s.version < last.version) : Breaks before s (.outOfOrder s.version last.version)

/-- The version that the next declaration is compared with. -/
def lastOf (before : List Step) : Option Version :=
  before.getLast?.map (·.version)

theorem lastOf_concat (before : List Step) (s : Step) :
    lastOf (before ++ [s]) = some s.version := by
  simp [lastOf]

variable {before steps more : List Step} {s : Step} {flaw : RegistryFlaw}

/-! ## The first flaw -/

theorem flawOf_of_breaks (h : Breaks before s flaw) : flawOf (lastOf before) s = some flaw := by
  unfold flawOf
  cases h with
  | blank hblank =>
    rw [Step.isDescribed_iff, Bool.not_eq_false] at hblank
    rw [if_pos hblank]
  | twice hshown hlast heq =>
    rw [Step.isDescribed_iff] at hshown
    simp [hshown, lastOf, hlast, heq, Version.lt_irrefl]
  | unordered hshown hlast hlt =>
    rw [Step.isDescribed_iff] at hshown
    have hne : ∀ last : Step, s.version < last.version → last.version ≠ s.version := by
      intro last hlt he
      exact Version.lt_irrefl _ (he ▸ hlt)
    simp [hshown, lastOf, hlast, Version.lt_asymm hlt, hne _ hlt]

theorem breaks_of_flawOf (h : flawOf (lastOf before) s = some flaw) : Breaks before s flaw := by
  unfold flawOf at h
  by_cases hblank : Text.isAllBlank s.description.toList = true
  · rw [if_pos hblank] at h
    cases h
    exact .blank (by simp [Step.isDescribed_iff, hblank])
  rw [if_neg hblank] at h
  have hshown : s.IsDescribed := Step.isDescribed_iff.mpr (Bool.not_eq_true _ ▸ hblank)
  unfold lastOf at h
  cases hlast : before.getLast? with
  | none =>
    rw [hlast] at h
    cases h
  | some last =>
    simp only [hlast, Option.map_some] at h
    split at h
    · cases h
    next hge =>
    split at h
    · next heq =>
      cases h
      exact .twice hshown hlast heq.symm
    · next hne =>
      cases h
      exact .unordered hshown hlast (Version.lt_of_not_lt_of_ne hge hne)

/-- A step that breaks a rule cannot stand where it is. -/
theorem Breaks.not_inOrder (h : Breaks before s flaw) : ¬ InOrder (before ++ [s]) := by
  intro hall
  have hlater : ∀ last, before.getLast? = some last → last.version < s.version := by
    intro last hlast
    have hasc := hall.ascending
    rw [List.pairwise_append] at hasc
    exact hasc.2.2 last (List.mem_of_getLast? hlast) s (List.mem_singleton_self s)
  cases h with
  | blank hblank => exact hblank (hall.described s (List.mem_append_right before (by simp)))
  | twice _ hlast heq => exact Version.lt_irrefl _ (heq ▸ hlater _ hlast)
  | unordered _ hlast hlt => exact Version.lt_asymm hlt (hlater _ hlast)

theorem InOrder.of_append (h : InOrder (before ++ more)) : InOrder before where
  described s hs := h.described s (List.mem_append_left more hs)
  ascending := (List.pairwise_append.mp h.ascending).1

/-- Behind steps in order, a version that is higher than the last one is higher than all. -/
theorem InOrder.concat (h : InOrder before) (hs : s.IsDescribed)
    (hlast : ∀ last, before.getLast? = some last → last.version < s.version) :
    InOrder (before ++ [s]) := by
  have hbelow : ∀ t ∈ before, t.version < s.version := by
    intro t ht
    cases hend : before.getLast? with
    | none =>
      rw [List.getLast?_eq_none_iff] at hend
      exact (List.not_mem_nil (hend ▸ ht)).elim
    | some last =>
      have hlt := hlast last hend
      obtain ⟨init, rfl⟩ := List.getLast?_eq_some_iff.mp hend
      rcases List.mem_append.mp ht with ht | ht
      · have hasc := h.ascending
        rw [List.pairwise_append] at hasc
        exact Version.lt_trans (hasc.2.2 t ht last (List.mem_singleton_self last)) hlt
      · exact List.mem_singleton.mp ht ▸ hlt
  constructor
  · intro t ht
    rcases List.mem_append.mp ht with ht | ht
    · exact h.described t ht
    · exact List.mem_singleton.mp ht ▸ hs
  · refine List.pairwise_append.mpr ⟨h.ascending, List.pairwise_singleton _ _, fun t ht u hu => ?_⟩
    exact List.mem_singleton.mp hu ▸ hbelow t ht

/-- A step has no flaw if it can be declared behind steps in order. -/
theorem flawOf_eq_none_iff (hbefore : InOrder before) :
    flawOf (lastOf before) s = none ↔ InOrder (before ++ [s]) := by
  constructor
  · intro h
    refine hbefore.concat ?_ fun last hlast => ?_
    · by_contra hblank
      rw [flawOf_of_breaks (.blank hblank)] at h
      cases h
    · rw [lastOf, hlast, Option.map_some] at h
      exact lt_of_flawOf h
  · intro h
    by_contra hflaw
    obtain ⟨flaw, hflaw⟩ := Option.ne_none_iff_exists'.mp hflaw
    exact (breaks_of_flawOf hflaw).not_inOrder h

theorem firstFlaw_cons (before : List Step) (s : Step) (rest : List Step) :
    firstFlaw (lastOf before) (s :: rest) =
      (flawOf (lastOf before) s).or (firstFlaw (lastOf (before ++ [s])) rest) := by
  rw [firstFlaw, lastOf_concat]

theorem firstFlaw_eq_none_iff (hbefore : InOrder before) :
    firstFlaw (lastOf before) steps = none ↔ InOrder (before ++ steps) := by
  induction steps generalizing before with
  | nil =>
    rw [List.append_nil]
    exact ⟨fun _ => hbefore, fun _ => rfl⟩
  | cons s rest ih =>
    have hassoc : before ++ s :: rest = (before ++ [s]) ++ rest := by simp
    rw [firstFlaw_cons, Option.or_eq_none_iff, flawOf_eq_none_iff hbefore, hassoc]
    constructor
    · rintro ⟨hs, hrest⟩
      exact (ih hs).mp hrest
    · intro h
      exact ⟨h.of_append, (ih h.of_append).mpr h⟩

/-- **The first flaw is that of the first step that breaks a rule**, whatever is declared after
it. -/
theorem firstFlaw_eq_some_iff (hbefore : InOrder before) :
    firstFlaw (lastOf before) steps = some flaw ↔ ∃ good s after, steps = good ++ s :: after ∧
      InOrder (before ++ good) ∧ Breaks (before ++ good) s flaw := by
  induction steps generalizing before with
  | nil => simp [firstFlaw]
  | cons s rest ih =>
    rw [firstFlaw_cons]
    cases hflaw : flawOf (lastOf before) s with
    | some f =>
      have hs := breaks_of_flawOf hflaw
      constructor
      · intro h
        cases h
        exact ⟨[], s, rest, rfl, by simpa using hbefore, by simpa using hs⟩
      · rintro ⟨good, t, after, heq, hgood, hbreaks⟩
        cases good with
        | nil =>
          cases heq
          rw [List.append_nil] at hbreaks
          rw [← flawOf_of_breaks hbreaks, hflaw]
          rfl
        | cons u good =>
          cases heq
          have hassoc : before ++ s :: good = (before ++ [s]) ++ good := by simp
          exact (hs.not_inOrder (hassoc ▸ hgood).of_append).elim
    | none =>
      have hs := (flawOf_eq_none_iff hbefore).mp hflaw
      rw [Option.none_or, ih hs]
      constructor
      · rintro ⟨good, t, after, rfl, hgood, hbreaks⟩
        exact ⟨s :: good, t, after, rfl, by simpa using hgood, by simpa using hbreaks⟩
      · rintro ⟨good, t, after, heq, hgood, hbreaks⟩
        cases good with
        | nil =>
          cases heq
          rw [List.append_nil] at hbreaks
          exact (hbreaks.not_inOrder hs).elim
        | cons u good =>
          cases heq
          exact ⟨good, t, after, rfl, by simpa using hgood, by simpa using hbreaks⟩

/-! ## Registries -/

theorem inOrder_nil : InOrder [] := ⟨by simp, .nil⟩

theorem ofSteps_of_flaw (h : firstFlaw none steps = some flaw) :
    ofSteps steps = .error (.invalidRegistry flaw) := by
  unfold ofSteps
  split
  · next f hf =>
    rw [h] at hf
    cases hf
    rfl
  · next hnone =>
    rw [h] at hnone
    cases hnone

theorem ofSteps_of_none (h : firstFlaw none steps = none) :
    ∃ r, ofSteps steps = .ok r ∧ r.steps.toList = steps := by
  unfold ofSteps
  split
  · next f hf =>
    rw [h] at hf
    cases hf
  · exact ⟨_, rfl, rfl⟩

/-- Steps in order are registered as they are. -/
theorem ofSteps_inOrder (h : InOrder steps) : ∃ r, ofSteps steps = .ok r ∧ r.steps.toList = steps :=
  ofSteps_of_none ((firstFlaw_eq_none_iff inOrder_nil).mpr h)

theorem ofSteps_eq_ok {r : Registry} (h : ofSteps steps = .ok r) :
    InOrder steps ∧ r.steps.toList = steps := by
  cases hfirst : firstFlaw none steps with
  | some flaw =>
    rw [ofSteps_of_flaw hfirst] at h
    cases h
  | none =>
    obtain ⟨r', hr', hsteps⟩ := ofSteps_of_none hfirst
    rw [hr'] at h
    cases h
    exact ⟨(firstFlaw_eq_none_iff inOrder_nil).mp hfirst, hsteps⟩

/-- The first step that breaks a rule is reported. -/
theorem ofSteps_eq_error_iff {e : MigrationError} :
    ofSteps steps = .error e ↔ ∃ before s after flaw, steps = before ++ s :: after ∧
      InOrder before ∧ Breaks before s flaw ∧ e = .invalidRegistry flaw := by
  constructor
  · intro h
    cases hfirst : firstFlaw none steps with
    | some flaw =>
      rw [ofSteps_of_flaw hfirst] at h
      cases h
      obtain ⟨before, s, after, hsplit, hbefore, hbreaks⟩ :=
        (firstFlaw_eq_some_iff inOrder_nil).mp hfirst
      exact ⟨before, s, after, flaw, hsplit, hbefore, hbreaks, rfl⟩
    | none =>
      obtain ⟨r, hr, -⟩ := ofSteps_of_none hfirst
      rw [hr] at h
      cases h
  · rintro ⟨before, s, after, flaw, hsplit, hbefore, hbreaks, rfl⟩
    exact ofSteps_of_flaw
      ((firstFlaw_eq_some_iff inOrder_nil).mpr ⟨before, s, after, hsplit, hbefore, hbreaks⟩)

/-! ## Finding a version by halving -/

section Search

variable {steps : Array Step} {v : Version} {low high : Nat} {h : high ≤ steps.size} {s : Step}

theorem version_lt_of_lt (hasc : steps.toList.Pairwise fun s t => s.version < t.version) {i j : Nat}
    (hij : i < j) (hi : i < steps.size) (hj : j < steps.size) :
    steps[i].version < steps[j].version :=
  List.pairwise_iff_getElem.mp hasc i j hi hj hij

/-- **Halving finds what is there.**  The step of a version is found if it stands in the part that
is searched, and nothing else is found. -/
theorem search_eq_some_iff (hasc : steps.toList.Pairwise fun s t => s.version < t.version) :
    search steps v low high h = some s ↔
      ∃ (i : Nat) (hi : i < steps.size), low ≤ i ∧ i < high ∧ steps[i] = s ∧ s.version = v := by
  fun_induction search steps v low high h with
  | case1 low high h hlt middle hmiddle t heq =>
    -- the version is in the middle, and nowhere else
    constructor
    · intro hsome
      have hs : t = s := Option.some.inj hsome
      exact ⟨middle, hmiddle, by omega, by omega, hs, hs ▸ heq⟩
    · rintro ⟨i, hi, -, -, rfl, hv⟩
      have hsame : steps[i].version = t.version := hv.trans heq.symm
      rcases Nat.lt_trichotomy i middle with hlt | rfl | hlt
      · have hbelow := version_lt_of_lt hasc hlt hi hmiddle
        exact (Version.lt_irrefl _ (hsame ▸ hbelow)).elim
      · rfl
      · have habove := version_lt_of_lt hasc hlt hmiddle hi
        exact (Version.lt_irrefl _ (hsame ▸ habove)).elim
  | case2 low high h hlt middle hmiddle t hne hbelow ih =>
    -- up to the middle, versions are too low
    rw [ih]
    constructor
    · rintro ⟨i, hi, hlow, hrest⟩
      exact ⟨i, hi, by omega, hrest⟩
    · rintro ⟨i, hi, hlow, hhigh, rfl, hv⟩
      refine ⟨i, hi, ?_, hhigh, rfl, hv⟩
      by_contra hle
      rcases Nat.lt_or_eq_of_le (show i ≤ middle by omega) with hlt | rfl
      · have hless := version_lt_of_lt hasc hlt hi hmiddle
        exact Version.lt_asymm hbelow (hv ▸ hless)
      · exact hne hv
  | case3 low high h hlt middle hmiddle t hne hnot ih =>
    -- from the middle on, versions are too high
    have habove : v < t.version := Version.lt_of_not_lt_of_ne hnot hne
    rw [ih]
    constructor
    · rintro ⟨i, hi, hlow, hhigh, hrest⟩
      exact ⟨i, hi, hlow, by omega, hrest⟩
    · rintro ⟨i, hi, hlow, hhigh, rfl, hv⟩
      refine ⟨i, hi, hlow, ?_, rfl, hv⟩
      by_contra hge
      rcases Nat.lt_or_eq_of_le (show middle ≤ i by omega) with hlt | rfl
      · have hmore := version_lt_of_lt hasc hlt hmiddle hi
        exact Version.lt_asymm habove (hv ▸ hmore)
      · exact hne hv
  | case4 low high h hlt =>
    constructor
    · nofun
    · rintro ⟨i, hi, hlow, hhigh, -⟩
      omega

end Search

theorem get?_eq_some_iff {r : Registry} {v : Version} {s : Step} :
    r.get? v = some s ↔ s ∈ r.steps.toList ∧ s.version = v := by
  rw [get?, search_eq_some_iff r.ascending, Array.mem_toList_iff, Array.mem_iff_getElem]
  constructor
  · rintro ⟨i, hi, -, -, hs, hv⟩
    exact ⟨⟨i, hi, hs⟩, hv⟩
  · rintro ⟨⟨i, hi, hs⟩, hv⟩
    exact ⟨i, hi, Nat.zero_le i, hi, hs, hv⟩

/-- **Halving finds what looking through the steps finds.** -/
theorem get?_eq_find? (r : Registry) (v : Version) :
    r.get? v = r.steps.toList.find? fun s => s.version = v := by
  cases hfind : r.steps.toList.find? fun s => s.version = v with
  | some s =>
    have hv : s.version = v := by simpa using List.find?_some hfind
    exact get?_eq_some_iff.mpr ⟨List.mem_of_find?_eq_some hfind, hv⟩
  | none =>
    rw [List.find?_eq_none] at hfind
    by_contra hne
    obtain ⟨s, hs⟩ := Option.ne_none_iff_exists'.mp hne
    obtain ⟨hmem, hv⟩ := get?_eq_some_iff.mp hs
    exact hfind s hmem (decide_eq_true hv)

theorem contains_iff {r : Registry} {v : Version} : r.contains v = true ↔ v ∈ r.versions := by
  rw [contains, Option.isSome_iff_exists, versions, List.mem_map]
  exact exists_congr fun s => get?_eq_some_iff

theorem latest?_eq_some_iff {r : Registry} {v : Version} :
    r.latest? = some v ↔ Version.Highest (· ∈ r.versions) v :=
  VersionSet.max?_eq_some_iff (s := ⟨r.versions, r.versions_ascending⟩)

/-- What can be asked of the registry agrees with the steps as they were declared. -/
structure Reflects (r : Registry) (steps : List Step) : Prop where
  /-- It holds these steps and no others, in this order. -/
  holds : r.steps.toList = steps
  /-- Its latest version is that of the last step. -/
  latest_last : r.latest? = steps.getLast?.map (·.version)
  /-- It is the highest version of all. -/
  latest_highest : ∀ v, r.latest? = some v ↔ Version.Highest (· ∈ steps.map (·.version)) v
  /-- A version is found as it would be if the steps were looked through one by one. -/
  finds_first : ∀ v, r.get? v = steps.find? fun s => s.version = v
  /-- There is no other step of a version than the one that is found. -/
  finds_only : ∀ v s, r.get? v = some s ↔ s ∈ steps ∧ s.version = v
  contains : ∀ v, r.contains v = true ↔ v ∈ steps.map (·.version)

theorem reflects (r : Registry) : r.Reflects r.steps.toList where
  holds := rfl
  latest_last := List.getLast?_map
  latest_highest _ := latest?_eq_some_iff
  finds_first := r.get?_eq_find?
  finds_only _ _ := get?_eq_some_iff
  contains _ := contains_iff

/-- **Which declarations are accepted.**  Steps are registered exactly if they are in order, and the
registry reflects them.  Otherwise the first that breaks a rule is reported, and no later one
changes that. -/
theorem ofSteps_exact (steps : List Step) :
    ((∃ r, ofSteps steps = .ok r) ↔ InOrder steps) ∧
      (∀ r, ofSteps steps = .ok r → r.Reflects steps) ∧
      (∀ e, ofSteps steps = .error e ↔ ∃ before s after flaw, steps = before ++ s :: after ∧
        InOrder before ∧ Breaks before s flaw ∧ e = .invalidRegistry flaw) ∧
      ∀ e more, ofSteps steps = .error e → ofSteps (steps ++ more) = .error e := by
  refine ⟨⟨?_, ?_⟩, ?_, fun e => ofSteps_eq_error_iff, ?_⟩
  · rintro ⟨r, h⟩
    exact (ofSteps_eq_ok h).1
  · intro h
    obtain ⟨r, hr, -⟩ := ofSteps_inOrder h
    exact ⟨r, hr⟩
  · intro r h
    obtain ⟨-, rfl⟩ := ofSteps_eq_ok h
    exact r.reflects
  · intro e more h
    obtain ⟨before, s, after, flaw, rfl, hrest⟩ := ofSteps_eq_error_iff.mp h
    exact ofSteps_eq_error_iff.mpr ⟨before, s, after ++ more, flaw, by simp, hrest⟩

end Registry
end SchemaMigration
