import HindleyMilner.Proofs.Instances

/-! Variables drawn from a supply, one or several at a time.

However variables are drawn, they are the ones of the next numbers, in their order. So no name is given
out again before every value of the counter has had its turn, wherever the counter started and whether or
not it ran over meanwhile. -/

set_option autoImplicit false

namespace HindleyMilner.Supply

inductive Draw where
  | one
  | several (count : Nat)
  deriving DecidableEq, Repr

namespace Draw

def count : Draw → Nat
  | one => 1
  | several count => count

def names : Draw → Supply → List String × Supply
  | one, supply => ([supply.fresh.1], supply.fresh.2)
  | several count, supply => freshList count supply

theorem names_eq_freshList (draw : Draw) (supply : Supply) : draw.names supply = freshList draw.count supply := by
  cases draw <;> rfl

end Draw

/-- Draw again and again. The names are listed in the order in which they are given out. -/
def drawAll : List Draw → Supply → List String × Supply
  | [], supply => ([], supply)
  | draw :: rest, supply =>
    let (names, supply) := draw.names supply
    let (others, supply) := drawAll rest supply
    (names ++ others, supply)

def total (draws : List Draw) : Nat := (draws.map Draw.count).sum

variable {supply : Supply} {count : Nat}

@[simp] theorem total_cons (draw : Draw) (rest : List Draw) : total (draw :: rest) = draw.count + total rest :=
  List.sum_cons

@[simp] theorem total_replicate_one (count : Nat) : total (List.replicate count .one) = count := by
  simp [total, Draw.count]

/-- It does not matter how many variables are drawn at a time. -/
theorem drawAll_eq_freshList (draws : List Draw) (supply : Supply) :
    drawAll draws supply = freshList (total draws) supply := by
  induction draws generalizing supply with
  | nil => rfl
  | cons draw rest ih =>
    -- The rest is drawn from where the first draw has left the counter.
    rw [drawAll, draw.names_eq_freshList]
    dsimp only
    rw [ih, total_cons]
    exact Prod.ext (names_freshList_add _ _ _).symm (freshList_add _ _ _).symm

theorem drawAll_replicate_one (count : Nat) (supply : Supply) :
    drawAll (List.replicate count .one) supply = freshList count supply := by
  rw [drawAll_eq_freshList, total_replicate_one]

/-- After all values of the counter the first one comes again. -/
theorem nameOf_add_cycle (number : Int64) : nameOf (number + .ofNat cycle) = nameOf number :=
  congrArg nameOf (Int64.add_zero number)

theorem nodup_freshList_iff : (freshList count supply).1.Nodup ↔ count ≤ cycle := by
  refine ⟨fun distinct => Nat.le_of_not_lt fun beyond => ?_, nodup_freshList⟩
  -- With one name too many, the first one stands in a second place.
  have first : (freshList count supply).1[0]? = some (nameOf supply.next) := by
    rw [getElem?_freshList (Nat.zero_lt_of_lt beyond)]
    exact congrArg (fun number => some (nameOf number)) (Int64.add_zero _)
  have again : (freshList count supply).1[cycle]? = some (nameOf supply.next) := by
    rw [getElem?_freshList beyond, nameOf_add_cycle]
  exact List.nodup_iff_getElem?_ne_getElem?.1 distinct 0 cycle (by decide) (by rwa [length_freshList])
    (first.trans again.symm)

/-- The names given out by a supply, from whatever number it goes on, are all different exactly if they are no more
than the counter has values. Several variables drawn at once are those drawn one by one, and so it is for any
sequence of draws. -/
theorem nodup_drawAll (supply : Supply) :
    (∀ draws, (drawAll draws supply).1.Nodup ↔ total draws ≤ cycle) ∧
    (∀ count, freshList count supply = drawAll (List.replicate count .one) supply) ∧
    ∀ draws, drawAll draws supply = drawAll (List.replicate (total draws) .one) supply := by
  refine ⟨fun draws => ?_, fun count => (drawAll_replicate_one count supply).symm, fun draws => ?_⟩
  · rw [drawAll_eq_freshList]
    exact nodup_freshList_iff
  · rw [drawAll_replicate_one, drawAll_eq_freshList]

/-- The counter runs over between two variables that are drawn at once. -/
example : (drawAll [.one, .several 2, .one] { next := 9223372036854775806 }).1 =
    ["t9223372036854775806", "t9223372036854775807", "t-9223372036854775808", "t-9223372036854775807"] := by
  cbv

end HindleyMilner.Supply
