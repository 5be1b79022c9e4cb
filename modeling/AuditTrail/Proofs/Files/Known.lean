import AuditTrail.Files.Store
import AuditTrail.Proofs.Text.Join
import Mathlib.Data.List.TakeWhile

/-!
# Paths that the system can know

The system knows a path by octets. There are such octets when every surrogate of the path
stands for a loose one, and the null octet is among them only if the path holds the null
character. The normal form of a path holds the code points of the path but for slashes and dots,
so both can be told of the path as it was given.

What bars a file at such a path is always reported by the system: `isSystems_of_content`.
-/

namespace AuditTrail

namespace Path

/-- The null character. -/
def null : CodePoint := CodePoint.ofNat 0

/-- The dot. -/
def dot : CodePoint := CodePoint.ofChar '.'

/-- A path whose surrogates all stand for loose octets. -/
def IsKnown (path : Text) : Prop := ∀ c ∈ path, c.isSurrogate -> isLooseOctet c

/-! ## Normal forms -/

/-- A path has a component, if only an empty one. -/
theorem components_ne_nil (path : Text) : components path ≠ [] := by
  fun_cases components path <;> simp

/-- The components of a path hold what the path holds but for slashes. -/
theorem mem_components {c : CodePoint} (other : c ≠ slash) {path : Text} :
    (∃ part ∈ components path, c ∈ part) ↔ c ∈ path := by
  induction path with
  | nil => simp [components]
  | cons first rest inductionHypothesis =>
      simp only [components]
      split
      next isSlash => simpa [isSlash, other] using inductionHypothesis
      next =>
        cases parts : components rest with
        | nil => exact absurd parts (components_ne_nil rest)
        | cons part others => simp [← inductionHypothesis, parts, or_assoc]

/-- The normal form of a path holds what the path holds but for slashes and dots. -/
theorem mem_normal {c : CodePoint} (notSlash : c ≠ slash) (notDot : c ≠ dot) {path : Text} :
    c ∈ normal path ↔ c ∈ path := by
  have notRoot : c ∉ root path := by
    intro member
    have slashes : c ∈ path.takeWhile (· = slash) := by
      simp only [root] at member
      split at member
      · exact member
      · exact List.mem_of_mem_take member
    exact notSlash (by simpa using List.mem_takeWhile_imp slashes)
  have named : (∃ part ∈ components path, (part ≠ [] ∧ part ≠ ("." : Text)) ∧ c ∈ part) ↔
      c ∈ path := by
    rw [← mem_components notSlash]
    refine exists_congr fun part => and_congr_right fun _ => and_iff_right_of_imp fun member => ?_
    refine ⟨List.ne_nil_of_mem member, fun single => notDot ?_⟩
    simpa [single, Text.ofString, dot] using member
  have shown : c ∈ root path ++ Text.join [slash] ((components path).filter fun part =>
      part ≠ [] && part ≠ ("." : Text)) ↔ c ∈ path := by
    rw [← named, List.mem_append, Text.mem_join (by simpa using notSlash)]
    simp [notRoot, and_assoc]
  unfold normal
  simp only
  split
  next empty =>
    rw [List.isEmpty_iff.mp empty] at shown
    rw [← shown]
    simpa [Text.ofString, dot] using notDot
  next => exact shown

/-- The normal form of a path holds the null character only if the path does. -/
@[simp] theorem null_mem_normal {path : Text} : null ∈ normal path ↔ null ∈ path :=
  mem_normal (by decide) (by decide)

/-- The system knows a path exactly when it knows its normal form. -/
@[simp] theorem isKnown_normal {path : Text} : IsKnown (normal path) ↔ IsKnown path := by
  have other {c : CodePoint} (surrogate : c.isSurrogate) : c ≠ slash ∧ c ≠ dot := by
    constructor <;> rintro rfl <;> exact absurd surrogate (by decide)
  refine forall_congr' fun c => ?_
  constructor
  · intro known member surrogate
    have notMark := other surrogate
    exact known ((mem_normal notMark.1 notMark.2).mpr member) surrogate
  · intro known member surrogate
    have notMark := other surrogate
    exact known ((mem_normal notMark.1 notMark.2).mp member) surrogate

/-! ## Octets -/

/-- An octet of a number between is not the null octet. -/
theorem ofNat_ne_zero {n : Nat} (positive : 0 < n) (small : n < 0x100) : 0 ≠ UInt8.ofNat n := by
  intro same
  have number := congrArg UInt8.toNat same
  rw [UInt8.toNat_ofNat_of_lt' small] at number
  exact absurd number positive.ne

/-- Only the null character has the null octet. -/
theorem eq_null_of_mem_encodeCodePoint {c : CodePoint} (member : 0 ∈ Utf8.encodeCodePoint c) :
    c = null := by
  have bound := c.isLt
  by_contra other
  have positive : 0 < c.val := Nat.pos_of_ne_zero fun zero => other (Fin.ext zero)
  simp only [Utf8.encodeCodePoint] at member
  split at member
  next =>
    exact ofNat_ne_zero positive (by omega) (List.mem_singleton.mp member)
  split at member
  next =>
    simp only [List.mem_cons, List.not_mem_nil, or_false] at member
    rcases member with zero | zero <;> exact ofNat_ne_zero (by omega) (by omega) zero
  split at member
  next =>
    simp only [List.mem_cons, List.not_mem_nil, or_false] at member
    rcases member with zero | zero | zero <;> exact ofNat_ne_zero (by omega) (by omega) zero
  next =>
    simp only [List.mem_cons, List.not_mem_nil, or_false] at member
    rcases member with zero | zero | zero | zero <;>
      exact ofNat_ne_zero (by omega) (by omega) zero

/-- A known path has octets, among which the null octet comes from the null character alone. -/
theorem octets?_of_isKnown {path : Text} (known : IsKnown path) (position : Nat) :
    ∃ octets, octets? position path = .ok octets ∧ (0 ∈ octets -> null ∈ path) := by
  induction path generalizing position with
  | nil => exact ⟨[], rfl, by simp⟩
  | cons c rest inductionHypothesis =>
      obtain ⟨octets, found, null⟩ :=
        inductionHypothesis (fun c member => known c (by simp [member])) (position + 1)
      simp only [octets?, found, Except.map]
      split
      next loose =>
        refine ⟨_, rfl, fun member => ?_⟩
        simp only [isLooseOctet, Bool.and_eq_true, decide_eq_true_eq] at loose
        rcases List.mem_cons.mp member with here | later
        · exact absurd here (ofNat_ne_zero (by omega) (by omega))
        · exact List.mem_cons_of_mem _ (null later)
      next loose =>
        split
        next surrogate => exact absurd (known c (by simp) surrogate) loose
        next =>
          refine ⟨_, rfl, fun member => ?_⟩
          rcases List.mem_append.mp member with here | later
          · rw [eq_null_of_mem_encodeCodePoint here]
            exact List.mem_cons_self
          · exact List.mem_cons_of_mem _ (null later)

/-- A path that is not known has none. -/
theorem octets?_of_not_isKnown {path : Text} (unknown : ¬IsKnown path) (position : Nat) :
    ∃ fault, octets? position path = .error fault := by
  induction path generalizing position with
  | nil => exact absurd (by simp [IsKnown]) unknown
  | cons c rest inductionHypothesis =>
      have later : (c.isSurrogate -> isLooseOctet c) ->
          ∃ fault, octets? (position + 1) rest = .error fault := fun first =>
        inductionHypothesis (fun known => unknown (List.forall_mem_cons.mpr ⟨first, known⟩)) _
      simp only [octets?]
      split
      next loose =>
        obtain ⟨fault, refused⟩ := later fun _ => loose
        exact ⟨fault, by rw [refused]; rfl⟩
      next =>
        split
        next => exact ⟨_, rfl⟩
        next surrogate =>
          obtain ⟨fault, refused⟩ := later fun isSurrogate => absurd isSurrogate surrogate
          exact ⟨fault, by rw [refused]; rfl⟩

end Path

namespace Files

/-- Going from folder to folder, only the system can find a fault. -/
theorem isSystems_of_walk {files : Files} {place parts : List Text} {fault : FileFault}
    (refused : files.walk place parts = .error fault) : fault.isSystems := by
  fun_induction walk files place parts with
  | case1 => cases refused
  | case2 | case3 | case5 => cases refused; rfl
  | case4 place part rest found short inductionHypothesis => exact inductionHypothesis refused

/-- What bars a known path without the null character is told by the system. -/
theorem isSystems_of_find {files : Files} {path : Text} {fault : FileFault}
    (known : Path.IsKnown path) (noNull : Path.null ∉ path)
    (refused : files.find path = .error fault) : fault.isSystems := by
  obtain ⟨octets, found, null⟩ := Path.octets?_of_isKnown known 0
  have noNullOctet : octets.contains 0 = false := by simpa using mt null noNull
  simp only [find, found, noNullOctet, Bool.false_eq_true, if_false] at refused
  split at refused
  next => cases refused; rfl
  next =>
    split at refused
    next walked => cases refused; exact isSystems_of_walk walked
    next =>
      split at refused
      next => cases refused; rfl
      next => cases refused

/-- What bars the file at a known path without the null character is told by the system. -/
theorem isSystems_of_content {files : Files} {path : Text} {fault : FileFault}
    (known : Path.IsKnown path) (noNull : Path.null ∉ path)
    (refused : files.content path = .error fault) : fault.isSystems := by
  unfold content at refused
  split at refused
  next found => cases refused; exact isSystems_of_find known noNull found
  next => cases refused; rfl
  next => cases refused
  next => cases refused

/-- A path that the system cannot know bars its file before the system is asked. -/
theorem content_of_not_isKnown {path : Text} (unknown : ¬Path.IsKnown path) (files : Files) :
    ∃ fault, files.content path = .error (.unwritable fault) := by
  obtain ⟨fault, refused⟩ := Path.octets?_of_not_isKnown unknown 0
  exact ⟨fault, by simp [content, find, refused]⟩

end Files

end AuditTrail
