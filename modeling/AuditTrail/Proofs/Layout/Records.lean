import AuditTrail.Layout.Rows
import AuditTrail.Proofs.Json.RoundTrip
import Mathlib.Data.List.Nodup

/-!
# What a record says

A record says again what its row said. Its members are the cells under the names of their columns
and nothing besides; they are put in order by their names, and since each goes along with its
name, no cell comes to stand under another one. How the texts get through is the matter of the
writer and the reader of JSON.
-/

namespace AuditTrail

/-! ## The order of names -/

namespace Text

/-- Texts are compared by their first code points before they are by the others. -/
theorem precedes_cons {a b : CodePoint} {left right : Text} :
    precedes (a :: left) (b :: right) = true ↔
      a < b ∨ a = b ∧ precedes left right = true := by
  simp only [precedes, Bool.or_eq_true, Bool.and_eq_true, decide_eq_true_eq]
  exact Iff.rfl

theorem precedes_trans {first second third : Text} (one : precedes first second = true)
    (two : precedes second third = true) : precedes first third = true := by
  induction first generalizing second third with
  | nil => rfl
  | cons a first inductionHypothesis =>
      cases second with
      | nil => cases one
      | cons b second =>
          cases third with
          | nil => cases two
          | cons c third =>
              rw [precedes_cons] at one two ⊢
              rcases one with less | ⟨rfl, one⟩
              · rcases two with further | ⟨rfl, -⟩
                · exact .inl (Fin.lt_trans less further)
                · exact .inl less
              · exact two.imp_right fun ⟨same, two⟩ => ⟨same, inductionHypothesis one two⟩

theorem precedes_total (left right : Text) :
    precedes left right = true ∨ precedes right left = true := by
  induction left generalizing right with
  | nil => exact .inl rfl
  | cons a left inductionHypothesis =>
      cases right with
      | nil => exact .inr rfl
      | cons b right =>
          simp only [precedes_cons]
          rcases Nat.lt_trichotomy a b with less | same | more
          · exact .inl (.inl less)
          · obtain rfl : a = b := Fin.ext same
            exact (inductionHypothesis right).imp (fun earlier => .inr ⟨rfl, earlier⟩)
              fun later => .inr ⟨rfl, later⟩
          · exact .inr (.inl more)

/-- Among different texts the order is the lexicographic one of their code points. -/
theorem lex_of_precedes {left right : Text} (earlier : precedes left right = true)
    (differ : left ≠ right) : List.Lex (· < ·) left right := by
  induction left generalizing right with
  | nil =>
      cases right with
      | nil => exact absurd rfl differ
      | cons b right => exact .nil
  | cons a left inductionHypothesis =>
      cases right with
      | nil => cases earlier
      | cons b right =>
          rcases precedes_cons.mp earlier with less | ⟨rfl, behind⟩
          · exact .rel less
          · exact .cons (inductionHypothesis behind fun same => differ (congrArg _ same))

end Text

/-! ## The members of a record -/

namespace Layout

variable {names cells : List Text}

/-- A record has the cells under the names of their columns as its members. -/
theorem recordMembers_perm (distinct : names.Nodup) (full : cells.length = names.length) :
    (recordMembers names cells).Perm (names.zip cells) := by
  have keys : Register.keys (names.zip cells) = names := List.map_fst_zip full.ge
  have filed : Register.ofPairs (names.zip cells) = names.zip cells :=
    Register.ofPairs_of_nodup (keys.symm ▸ distinct)
  rw [recordMembers, filed]
  exact List.mergeSort_perm _ _

/-- The names of a record's members are the names of the columns. -/
theorem keys_recordMembers_perm (distinct : names.Nodup) (full : cells.length = names.length) :
    (recordMembers names cells).keys.Perm names := by
  have keys : (names.zip cells).map Prod.fst = names := List.map_fst_zip full.ge
  have agree := (recordMembers_perm distinct full).map Prod.fst
  rwa [keys] at agree

/-- The names of a record's members rise. -/
theorem keys_recordMembers_rise (distinct : names.Nodup) (full : cells.length = names.length) :
    (recordMembers names cells).keys.Pairwise (List.Lex (· < ·)) := by
  have transitive (first second third : Text × Text) :
      Text.precedes first.1 second.1 = true -> Text.precedes second.1 third.1 = true ->
        Text.precedes first.1 third.1 = true := Text.precedes_trans
  have total (left right : Text × Text) :
      (Text.precedes left.1 right.1 || Text.precedes right.1 left.1) = true := by
    simpa using Text.precedes_total left.1 right.1
  have sorted : (recordMembers names cells).Pairwise fun left right =>
      Text.precedes left.1 right.1 = true :=
    List.pairwise_mergeSort transitive total _
  have differ := (keys_recordMembers_perm distinct full).nodup_iff.mpr distinct
  exact (List.pairwise_map.mpr sorted).imp₂ (fun _ _ => Text.lex_of_precedes) differ

/-! ## Records read back -/

/-- What a text has to be that says as a record what `cells` say under `names`. -/
structure IsRecord (names cells : List Text) (text : Text) : Prop where
  /-- It stands on one line and needs nothing but printable ASCII. -/
  printable : text.IsPrintableAscii
  /-- So it can be written, with one octet for each code point. -/
  written : Utf8.encode? text = .ok (text.map fun c => UInt8.ofNat c.val)
  /-- It is read as an object of texts that has each cell under the name of its column, has
  nothing else, and has the names in rising order. -/
  read : ∃ members : Register Text,
    Json.read text = .ok (.object (members.map fun member => (member.1, .text member.2))) ∧
    members.Perm (names.zip cells) ∧
    (∀ name cell, (name, cell) ∈ names.zip cells -> members.get? name = some cell) ∧
    members.keys.Pairwise (List.Lex (· < ·))

/-- A row of as many cells as there are columns is laid out as a record that says what the row
said, whatever its cells hold, and whatever the columns are called if no two have one name. -/
theorem row_isRecord (distinct : names.Nodup) (full : cells.length = names.length)
    (unjoined : ∀ text ∈ names ++ cells, text.IsUnjoined) :
    ∃ text, (Layout.records names).row cells = .ok text ∧ IsRecord names cells text := by
  have among := recordMembers_perm distinct full
  have namesAgree := keys_recordMembers_perm distinct full
  have membersDiffer : (recordMembers names cells).keys.Nodup := namesAgree.nodup_iff.mpr distinct
  have membersUnjoined : Json.AreUnjoined (recordMembers names cells) := by
    rintro ⟨name, cell⟩ member
    obtain ⟨named, held⟩ := List.of_mem_zip (among.mem_iff.mp member)
    exact ⟨unjoined name (List.mem_append_left _ named),
      unjoined cell (List.mem_append_right _ held)⟩
  refine ⟨_, if_pos full, ?_⟩
  have printable := Json.isPrintableAscii_write_record (recordMembers names cells)
  exact {
    printable
    written := Utf8.encode?_of_isPrintableAscii printable
    read := ⟨_, Json.read_write_record membersDiffer membersUnjoined, among,
      fun _ _ filed => Register.get?_of_mem membersDiffer (among.mem_iff.mpr filed),
      keys_recordMembers_rise distinct full⟩ }

/-- Cells with a quotation mark, a backslash, a line end, the code point that deletes, one that
needs a pair of escapes, and both halves of a pair, the wrong way round. -/
theorem row_isRecord_awkward :
    let names : List Text := ["b", "a\n", "a", ""]
    let cells : List Text := ["\"\\\n\x7f", [.ofNat 0x1D11E], [.ofNat 0xDC00, .ofNat 0xD800], ""]
    names.Nodup ∧ cells.length = names.length ∧ (∀ text ∈ names ++ cells, text.IsUnjoined) ∧
      ∃ text, (Layout.records names).row cells = .ok text ∧ IsRecord names cells text := by
  intro names cells
  have distinct : names.Nodup := by decide
  have unjoined : ∀ text ∈ names ++ cells, text.IsUnjoined := by decide
  exact ⟨distinct, rfl, unjoined, row_isRecord distinct rfl unjoined⟩

end Layout

end AuditTrail
