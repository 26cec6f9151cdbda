import HindleyMilner.NameMap

/-! Finite sets of names, listed in ascending order. -/

set_option autoImplicit false

namespace HindleyMilner

abbrev NameSet := NameMap Unit

namespace NameSet

def ofNames (names : List String) : NameSet := NameMap.ofList (names.map (·, ()))

def add (set : NameSet) (name : String) : NameSet := set.insert name ()

@[simp] theorem contains_ofNames (names : List String) (query : String) :
    (ofNames names).contains query = decide (query ∈ names) := by
  unfold NameMap.contains ofNames
  by_cases mem : query ∈ names
  · have listed : (query, ()) ∈ names.map (·, ()) := List.mem_map.2 ⟨query, mem, rfl⟩
    rw [NameMap.find?_ofList_of_mem listed fun _ _ => rfl]
    simp [mem]
  · rw [NameMap.find?_ofList_eq_none fun value inside => mem (by simpa using inside)]
    simp [mem]

end NameSet

end HindleyMilner
