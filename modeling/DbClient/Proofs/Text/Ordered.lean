import DbClient.Text.NameMap

/-!
# The order of tables

A table that is built by putting values under names is in the order of the names, so
that each name stands in it once.
-/

namespace DbClient.NameMap

variable {α : Type} {name : String} {value : α} {table : List (String × α)}

/-- The names of a table, strictly ascending. -/
def Ordered (table : List (String × α)) : Prop :=
  table.Pairwise fun a b => a.1 < b.1

theorem mem_insert {entry : String × α} (h : entry ∈ insert name value table) :
    entry = (name, value) ∨ entry ∈ table := by
  induction table with
  | nil => exact .inl (List.mem_singleton.1 h)
  | cons first rest ih =>
    unfold insert at h
    split at h
    · exact List.mem_cons.1 h
    split at h
    · rcases List.mem_cons.1 h with h | h
      · exact .inl h
      · exact .inr (List.mem_cons_of_mem _ h)
    · rcases List.mem_cons.1 h with h | h
      · exact .inr (List.mem_cons.2 (.inl h))
      · rcases ih h with h | h
        · exact .inl h
        · exact .inr (List.mem_cons_of_mem _ h)

theorem ordered_insert (h : Ordered table) : Ordered (insert name value table) := by
  induction table with
  | nil => exact List.pairwise_singleton _ _
  | cons first rest ih =>
    obtain ⟨hfirst, hrest⟩ := List.pairwise_cons.1 h
    unfold insert
    split
    · rename_i hlt
      refine List.pairwise_cons.2 ⟨?_, h⟩
      intro entry hentry
      rcases List.mem_cons.1 hentry with rfl | hentry
      · exact hlt
      · exact String.lt_trans hlt (hfirst entry hentry)
    split
    · rename_i heq
      subst heq
      exact List.pairwise_cons.2 ⟨hfirst, hrest⟩
    · rename_i hnlt hne
      refine List.pairwise_cons.2 ⟨?_, ih hrest⟩
      intro entry hentry
      rcases mem_insert hentry with rfl | hentry
      · -- neither less nor equal, so greater
        refine String.not_le.1 fun hle => hne ?_
        exact String.le_antisymm hle (String.not_lt.1 hnlt)
      · exact hfirst entry hentry

theorem ordered_ofNewest (entries : List (String × α)) : Ordered (ofNewest entries) := by
  induction entries with
  | nil => exact .nil
  | cons entry older ih => exact ordered_insert ih

theorem Ordered.rest (h : Ordered ((name, value) :: table)) : Ordered table :=
  (List.pairwise_cons.1 h).2

/-- In the table of named values the newest value of a name counts. -/
theorem lookup_ofNewest (key : String) (entries : List (String × α)) :
    (ofNewest entries).lookup key = entries.lookup key := by
  induction entries with
  | nil => rfl
  | cons entry older ih =>
    obtain ⟨n, v⟩ := entry
    rw [ofNewest, lookup_insert, ih, List.lookup_cons]
    by_cases h : key = n
    · simp [h]
    · simp [h, beq_false_of_ne h]

end DbClient.NameMap
