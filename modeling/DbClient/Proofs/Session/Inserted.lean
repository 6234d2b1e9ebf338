import DbClient.Proofs.Command.Values
import DbClient.Proofs.Session.Written
import DbClient.Transport.Scripted

/-!
# Insertions that are told apart

What an insertion hands over says which values it inserts, also when texts hold commas or
parentheses, or look like another value. Only single quotes in them are taken for its own.
-/

namespace DbClient

theorem Statement.branchAccepted_insert (database table : String) (columns : List String)
    (values : List Literal) : (insert database table columns values).BranchAccepted := by
  rintro name ⟨⟩

namespace Request

variable {τ τ' : Type} [Endpoint τ] [Endpoint τ'] {database table : String}
  {columns : List String} {values values' : List Literal} {frame frame' : Bytes}

/-- The values of an insertion are read back from what it hands over. So two insertions into the
same columns, on whichever clients, hand the same over only if they insert the same values. -/
theorem inserted_values_told_apart (h : ∀ v ∈ values, v.IsPlain) (h' : ∀ v ∈ values', v.IsPlain)
    {c : Client (Recorder τ)} {c' : Client (Recorder τ')}
    (hsent : Step.handed ⟨.insert database table columns values, c⟩ = [frame])
    (hsent' : Step.handed ⟨.insert database table columns values', c'⟩ = [frame']) :
    Statement.readInserted? database table columns frame = some values ∧
      (frame = frame' ↔ values = values') := by
  have hframe : frame = frameOf (Statement.insert database table columns values).text :=
    eq_frameOf_of_handed rfl (Statement.branchAccepted_insert _ _ _ _) hsent
  have hframe' : frame' = frameOf (Statement.insert database table columns values').text :=
    eq_frameOf_of_handed rfl (Statement.branchAccepted_insert _ _ _ _) hsent'
  have hread : Statement.readInserted? database table columns frame = some values := by
    rw [hframe]
    exact Statement.readInserted?_frameOf h
  have hread' : Statement.readInserted? database table columns frame' = some values' := by
    rw [hframe']
    exact Statement.readInserted?_frameOf h'
  refine ⟨hread, fun heq => ?_, fun heq => by rw [hframe, hframe', heq]⟩
  rw [heq, hread'] at hread
  exact (Option.some.inj hread).symm

/-- One text with a comma in it is not a text and a missing value. -/
theorem inserted_comma_told_apart :
    let c : Client (Recorder Scripted) := .attach .default (.start (.start [] []))
    let columns := ["a", "b"]
    let frame := frameOf "INSERT INTO app.t (a, b) VALUES ('x, NULL', -7)"
    let frame' := frameOf "INSERT INTO app.t (a, b) VALUES ('x', NULL, -7)"
    Step.handed ⟨.insert "app" "t" columns [.text "x, NULL", .integer (-7)], c⟩ = [frame] ∧
      Step.handed ⟨.insert "app" "t" columns [.text "x", .null, .integer (-7)], c⟩ = [frame'] ∧
      Statement.readInserted? "app" "t" columns frame = some [.text "x, NULL", .integer (-7)] ∧
      frame ≠ frame' := by
  intro c columns frame frame'
  have hsent : Step.handed ⟨.insert "app" "t" columns [.text "x, NULL", .integer (-7)], c⟩ =
      [frame] := by
    rw [handed_statement rfl (Statement.branchAccepted_insert _ _ _ _)]
    decide
  have hsent' : Step.handed ⟨.insert "app" "t" columns [.text "x", .null, .integer (-7)], c⟩ =
      [frame'] := by
    rw [handed_statement rfl (Statement.branchAccepted_insert _ _ _ _)]
    decide
  obtain ⟨hread, heq⟩ := inserted_values_told_apart (by decide) (by decide) hsent hsent'
  exact ⟨hsent, hsent', hread, mt heq.1 (by decide)⟩

end Request
end DbClient
