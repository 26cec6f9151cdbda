import HindleyMilner.Proofs.Renaming
import HindleyMilner.Proofs.Run

/-! What is taken from a supply.

The counter may run over here. A run of inference takes as many variables as it demands, one after
the other, and an instantiation puts a variable of its own in for each quantified name. Among two to
the power of 64 variables no two have the same name. -/

set_option autoImplicit false

namespace HindleyMilner

namespace Supply

theorem freshList_snd (count : Nat) (supply : Supply) :
    (freshList count supply).2 = { supply with next := supply.next + .ofNat count } := by
  induction count generalizing supply with
  | zero =>
    have same : supply.next + .ofNat 0 = supply.next := Int64.add_zero _
    rw [same, freshList]
  | succ count ih =>
    rw [freshList]
    dsimp only
    rw [ih, fresh, ← next_succ, Int64.add_assoc, Int64.add_comm 1]

theorem freshList_add (count more : Nat) (supply : Supply) :
    (freshList (count + more) supply).2 = (freshList more (freshList count supply).2).2 := by
  simp only [freshList_snd, Int64.ofNat_add, Int64.add_assoc]

theorem names_freshList_add (count more : Nat) (supply : Supply) :
    (freshList (count + more) supply).1 = (freshList count supply).1 ++ (freshList more (freshList count supply).2).1 := by
  induction count generalizing supply with
  | zero => rw [Nat.zero_add, freshList, List.nil_append]
  | succ count ih =>
    rw [Nat.add_right_comm, freshList, freshList]
    dsimp only
    rw [ih, List.cons_append]

@[simp] theorem length_freshList (count : Nat) (supply : Supply) : (freshList count supply).1.length = count := by
  induction count generalizing supply with
  | zero => rfl
  | succ count ih => exact congrArg (· + 1) (ih supply.fresh.2)

/-- The names given out depend on the counter only. -/
theorem names_freshList_of_next {count : Nat} {supply other : Supply} (same : supply.next = other.next) :
    (freshList count supply).1 = (freshList count other).1 := by
  induction count generalizing supply other with
  | zero => rfl
  | succ count ih =>
    simp only [freshList, fresh, same]
    exact congrArg _ (ih rfl)

/-- As long as the counter does not run over, the variables given out are numbered ones. -/
theorem exists_numbered_of_mem {n count : Nat} {name : String} (fits : n + count ≤ limit)
    (mem : name ∈ (freshList count (starting n)).1) : ∃ k, n ≤ k ∧ name = numbered k := by
  induction count generalizing n with
  | zero => exact absurd mem List.not_mem_nil
  | succ count ih =>
    rw [freshList, fresh_starting n (by omega)] at mem
    rcases List.mem_cons.1 mem with rfl | later
    · exact ⟨n, Nat.le_refl n, rfl⟩
    · obtain ⟨k, above, same⟩ := ih (by omega) later
      exact ⟨k, Nat.le_of_succ_le above, same⟩

theorem next_choose (bound : List String) (supply : Supply) :
    (choose bound supply).next = supply.next + .ofNat bound.length := by
  induction bound generalizing supply with
  | nil => exact (Int64.add_zero _).symm
  | cons name rest ih =>
    rw [choose]
    dsimp only
    rw [ih, List.length_cons, fresh, ← next_succ, Int64.add_assoc, Int64.add_comm 1]

variable {scheme : Scheme} {supply : Supply}

theorem instantiate_snd (idle : supply.chosen = ∅) :
    (instantiate scheme supply).2 = (freshList scheme.bound.length supply).2 := by
  unfold instantiate
  split
  · rename_i plain
    rw [List.isEmpty_iff.1 plain]
    rfl
  · dsimp only
    rw [freshList_snd, next_choose, idle]

/-- The number of different values of the counter. -/
def cycle : Nat := 18446744073709551616

theorem nameOf_injective {j k : Int64} (same : nameOf j = nameOf k) : j = k :=
  Int64.toInt_inj.1 (Int.repr_injective ((String.append_right_inj "t").1 same))

theorem eq_of_nameOf_eq {start : Int64} {i j : Nat} (below : i < cycle) (belowOther : j < cycle)
    (same : nameOf (start + .ofNat i) = nameOf (start + .ofNat j)) : i = j := by
  have numbers := congrArg (fun number => number.toBitVec.toNat) ((Int64.add_right_inj start).1 (nameOf_injective same))
  unfold cycle at below belowOther
  simp only [Int64.toBitVec_ofNat', BitVec.toNat_ofNat] at numbers
  omega

theorem image_choose_of_not_mem {bound : List String} {v : String} (outside : v ∉ bound) :
    (choose bound supply).chosen.image v = supply.chosen.image v := by
  induction bound generalizing supply with
  | nil => rfl
  | cons name rest ih =>
    obtain ⟨other, outsideRest⟩ := not_or.1 (mt List.mem_cons.2 outside)
    rw [choose]
    dsimp only
    rw [ih outsideRest, Subst.image_insert, if_neg other, fresh]

/-- The innermost quantifier of a quantified name. -/
theorem exists_innermost {bound : List String} {v : String} (mem : v ∈ bound) :
    ∃ i : Nat, bound[i]? = some v ∧ ∀ j, i < j → bound[j]? ≠ some v := by
  induction bound with
  | nil => exact absurd mem List.not_mem_nil
  | cons name rest ih =>
    by_cases inRest : v ∈ rest
    · obtain ⟨i, place, last⟩ := ih inRest
      refine ⟨i + 1, place, fun j later => ?_⟩
      obtain ⟨k, rfl⟩ := Nat.exists_eq_succ_of_ne_zero (Nat.ne_zero_of_lt later)
      exact last k (Nat.lt_of_succ_lt_succ later)
    · refine ⟨0, by rw [(List.mem_cons.1 mem).resolve_right inRest]; rfl, fun j later found => ?_⟩
      obtain ⟨k, rfl⟩ := Nat.exists_eq_succ_of_ne_zero (Nat.ne_zero_of_lt later)
      exact inRest (List.mem_iff_getElem?.2 ⟨k, found⟩)

theorem image_choose_of_innermost {bound : List String} {i : Nat} {v : String} (place : bound[i]? = some v)
    (last : ∀ j, i < j → bound[j]? ≠ some v) :
    (choose bound supply).chosen.image v = .var (nameOf (supply.next + .ofNat i)) := by
  induction bound generalizing supply i with
  | nil => cases place
  | cons name rest ih =>
    rw [choose]
    dsimp only
    cases i with
    | zero =>
      have outside : v ∉ rest := fun mem => by
        obtain ⟨j, found⟩ := List.mem_iff_getElem?.1 mem
        exact last (j + 1) (Nat.succ_pos j) found
      rw [image_choose_of_not_mem outside, Subst.image_insert, if_pos (Option.some.inj place).symm, fresh]
      exact congrArg (fun number => Ty.var (nameOf number)) (Int64.add_zero _).symm
    | succ i =>
      have lastRest (j : Nat) (later : i < j) : rest[j]? ≠ some v := last (j + 1) (Nat.succ_lt_succ later)
      rw [ih place lastRest, fresh, ← next_succ, Int64.add_comm (.ofNat i), ← Int64.add_assoc]

theorem image_choose_of_mem {bound : List String} {v : String} (mem : v ∈ bound) :
    ∃ i, bound[i]? = some v ∧ (choose bound supply).chosen.image v = .var (nameOf (supply.next + .ofNat i)) := by
  obtain ⟨i, place, last⟩ := exists_innermost mem
  exact ⟨i, place, image_choose_of_innermost place last⟩

/-- An instance of a scheme that quantifies over all its variables is its type with other names. -/
theorem alphaEquals_instantiate (whole : scheme.type.isComplete = true)
    (closed : ∀ v, scheme.type.occurs v = true → v ∈ scheme.bound) (few : scheme.bound.length ≤ cycle) :
    scheme.type.alphaEquals (instantiate scheme supply).1 = true := by
  unfold instantiate
  split
  · have same : scheme.type.rename id = scheme.type := Ty.rename_eq_self fun v _ => rfl
    nth_rewrite 2 [← same]
    exact Ty.alphaEquals_rename whole fun v w _ _ same => same
  · have images (v : String) (inside : scheme.type.occurs v = true) := @image_choose_of_mem supply _ _ (closed v inside)
    choose! place places image using images
    dsimp only
    rw [Ty.apply_eq_rename image]
    refine Ty.alphaEquals_rename whole fun v w inV inW same => ?_
    -- Two places of the list that have one name are one place, which has one name.
    have below (u : String) (inside : scheme.type.occurs u = true) : place u < cycle :=
      Nat.lt_of_lt_of_le (List.getElem?_eq_some_iff.1 (places u inside)).1 few
    have samePlace := eq_of_nameOf_eq (below v inV) (below w inW) same
    have found := places v inV
    rw [samePlace, places w inW] at found
    exact (Option.some.inj found).symm

end Supply

namespace Infer

open Supply (freshList)

theorem supply_andThen {result : Except Stop Typing × Progress}
    {next : Typing → Progress → Except Stop Typing × Progress} {more : Nat}
    (stops : ∀ stop after, result = (.error stop, after) → more = 0)
    (step : ∀ found after, result = (.ok found, after) →
      (next found after).2.supply = (freshList more after.supply).2) :
    (andThen result next).2.supply = (freshList more result.2.supply).2 := by
  obtain ⟨outcome, after⟩ := result
  cases outcome with
  | error stop =>
    rw [stops stop after rfl]
    rfl
  | ok found => exact step found after rfl

theorem progress_andThen_ok (result : Except Stop Typing × Progress) (value : Typing → Typing) :
    (andThen result fun found after => (.ok (value found), after)).2 = result.2 := by
  obtain ⟨outcome, after⟩ := result
  cases outcome <;> rfl

theorem idle_of_freshList {result : Except Stop Typing × Progress} {start : Supply} {count : Nat}
    {found : Typing} {after : Progress} (idle : start.chosen = ∅) (took : result.2.supply = (freshList count start).2)
    (went : result = (.ok found, after)) : after.supply.chosen = ∅ := by
  rw [went] at took
  rw [took, Supply.freshList_snd, idle]

/-- A run takes as many variables as it demands, from any supply. -/
theorem supply_run (expr : Expr) (env : Env) {progress : Progress} (idle : progress.supply.chosen = ∅) :
    ((typing env expr).run.run progress).2.supply = (freshList (demand env progress expr) progress.supply).2 := by
  induction expr generalizing env progress with
  | absent => rfl
  | lit kind text mark => cases kind <;> rfl
  | var name mark =>
    rw [run_var, demand]
    cases env.find? name with
    | none => rfl
    | some scheme => exact Supply.instantiate_snd idle
  | func param body mark ih =>
    rw [run_func, demand, Supply.freshList_add]
    dsimp only
    rw [progress_andThen_ok]
    exact ih (env.declare param (.var progress.supply.fresh.1)) idle
  | call fn arg mark ihFn ihArg =>
    have tookFn := ihFn env idle
    rw [run_call, demand, Supply.freshList_add, ← tookFn]
    refine supply_andThen (fun stop after wentFn => by simp only [wentFn]) fun function after wentFn => ?_
    have tookArg := ihArg (env.subst function.subst) (idle_of_freshList idle tookFn wentFn)
    simp only [wentFn]
    rw [Supply.freshList_add, ← tookArg]
    refine supply_andThen (fun stop last wentArg => by simp only [wentArg]) fun argument last wentArg => ?_
    simp only [wentArg]
    unfold apply
    dsimp only
    split <;> rfl
  | letIn name value body pos ihValue ihBody =>
    have tookValue := ihValue env idle
    rw [run_letIn, demand, Supply.freshList_add, ← tookValue]
    refine supply_andThen (fun stop after wentValue => by simp only [wentValue])
      fun definition after wentValue => ?_
    simp only [wentValue]
    rw [progress_andThen_ok]
    have idleValue : after.supply.chosen = ∅ := idle_of_freshList idle tookValue wentValue
    exact ihBody (bodyEnv env name definition) idleValue

end Infer

end HindleyMilner
