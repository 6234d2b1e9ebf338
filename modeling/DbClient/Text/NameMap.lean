/-!
# Tables ordered by name

A list of named values in the order of the names' code points, each name once.
Putting a value under a name that is there replaces the old one.
-/

namespace DbClient.NameMap

variable {α : Type}

/-- The table with a value put under a name. -/
def insert (name : String) (value : α) : List (String × α) → List (String × α)
  | [] => [(name, value)]
  | (n, v) :: rest =>
    if name < n then (name, value) :: (n, v) :: rest
    else if name = n then (name, value) :: rest
    else (n, v) :: insert name value rest

/-- Only the name that is put changes its value. -/
theorem lookup_insert (name key : String) (value : α) (table : List (String × α)) :
    (insert name value table).lookup key =
      if key = name then some value else table.lookup key := by
  induction table with
  | nil =>
    by_cases h : key = name
    · simp [insert, h]
    · simp [insert, List.lookup_cons, h, beq_false_of_ne h]
  | cons entry rest ih =>
    obtain ⟨n, v⟩ := entry
    unfold insert
    split
    · by_cases h : key = name
      · simp [h]
      · simp [List.lookup_cons, h, beq_false_of_ne h]
    split
    · rename_i hn
      by_cases h : key = name
      · simp [h]
      · simp [List.lookup_cons, h, ← hn, beq_false_of_ne h]
    · rename_i hn
      by_cases h : key = name
      · rw [h] at ih ⊢
        simp [List.lookup_cons, ih, beq_false_of_ne hn]
      · simp [List.lookup_cons, ih, h]

/-- The table of named values given newest first: of two with one name the newer
stays. -/
def ofNewest : List (String × α) → List (String × α)
  | [] => []
  | (name, value) :: older => insert name value (ofNewest older)

end DbClient.NameMap
