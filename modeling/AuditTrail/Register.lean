import AuditTrail.Text.Basic

/-!
# Registers

A register files values under texts and remembers the order in which the texts first
came. Filing under a text again replaces its value and keeps its place, so the last
value filed is the one that `get?` finds.
-/

namespace AuditTrail

/-- Values filed under texts, in the order of first filing. -/
abbrev Register (α : Type) := List (Text × α)

namespace Register

variable {α : Type}

/-- The register with `value` filed under `key`. -/
def put (key : Text) (value : α) : Register α -> Register α
  | [] => [(key, value)]
  | entry :: rest =>
    if entry.1 = key then (key, value) :: rest else entry :: put key value rest

/-- The value filed under `key`. -/
def get? (key : Text) : Register α -> Option α
  | [] => none
  | entry :: rest => if entry.1 = key then some entry.2 else get? key rest

/-- The register that results from filing the pairs one after the other. -/
def ofPairs (pairs : List (Text × α)) : Register α :=
  pairs.foldl (fun register pair => register.put pair.1 pair.2) []

/-- The texts under which something is filed. -/
def keys (register : Register α) : List Text := register.map Prod.fst

@[simp] theorem keys_nil : keys ([] : Register α) = [] := rfl

@[simp] theorem keys_cons (entry : Text × α) (rest : Register α) :
    keys (entry :: rest) = entry.1 :: keys rest := rfl

@[simp] theorem keys_append (first second : Register α) :
    keys (first ++ second) = keys first ++ keys second := List.map_append

@[simp] theorem length_keys (register : Register α) : register.keys.length = register.length :=
  List.length_map _

@[simp] theorem get?_nil (key : Text) : get? key ([] : Register α) = none := rfl

@[simp] theorem get?_put_self (key : Text) (value : α) (register : Register α) :
    get? key (put key value register) = some value := by
  induction register with
  | nil => simp [put, get?]
  | cons entry rest ih => by_cases same : entry.1 = key <;> simp [put, get?, same, ih]

theorem get?_put_of_ne {key other : Text} (differ : other ≠ key) (value : α)
    (register : Register α) : get? other (put key value register) = get? other register := by
  induction register with
  | nil => simp [put, get?, Ne.symm differ]
  | cons entry rest ih =>
    by_cases same : entry.1 = key
    · simp [put, get?, same, Ne.symm differ]
    · rw [put, if_neg same, get?, get?, ih]

theorem get?_put (key other : Text) (value : α) (register : Register α) :
    get? other (put key value register) =
      if key = other then some value else get? other register := by
  by_cases same : key = other
  · rw [if_pos same, ← same, get?_put_self]
  · rw [if_neg same, get?_put_of_ne (Ne.symm same)]

theorem get?_append (key : Text) (first second : Register α) :
    get? key (first ++ second) = (get? key first).or (get? key second) := by
  induction first with
  | nil => rfl
  | cons entry rest ih => by_cases same : entry.1 = key <;> simp [get?, same, ih]

/-- What is found among items that each stand under a text of their own. -/
theorem get?_map {β : Type} (key : Text) (name : β -> Text) (value : β -> α) (items : List β) :
    get? key (items.map fun item => (name item, value item)) =
      (items.find? fun item => name item = key).map value := by
  induction items with
  | nil => rfl
  | cons item rest ih => by_cases same : name item = key <;> simp [get?, same, ih]

/-- Something is found exactly under the texts under which something is filed. -/
theorem isSome_get? {key : Text} {register : Register α} :
    (get? key register).isSome ↔ key ∈ register.keys := by
  induction register with
  | nil => simp
  | cons entry rest ih =>
    by_cases same : entry.1 = key
    · simp [get?, same]
    · rw [get?, if_neg same, ih, keys_cons, List.mem_cons]
      exact ⟨Or.inr, fun member => member.resolve_left (Ne.symm same)⟩

/-- A value under a new text comes last. -/
theorem put_of_not_mem {key : Text} (value : α) {register : Register α}
    (new : key ∉ register.keys) : put key value register = register ++ [(key, value)] := by
  induction register with
  | nil => rfl
  | cons entry rest ih =>
    rw [keys, List.map_cons, List.mem_cons, not_or] at new
    rw [put, if_neg (Ne.symm new.1), ih new.2, List.cons_append]

/-- Pairs whose texts differ are a register as they are. -/
theorem ofPairs_of_nodup {pairs : List (Text × α)} (distinct : (keys pairs).Nodup) :
    ofPairs pairs = pairs := by
  have filed (before later : List (Text × α)) (distinct : (keys (before ++ later)).Nodup) :
      later.foldl (fun register pair => put pair.1 pair.2 register) before = before ++ later := by
    induction later generalizing before with
    | nil => simp
    | cons pair later ih =>
      have new : pair.1 ∉ keys before := by
        rw [keys, List.map_append, List.nodup_append] at distinct
        exact fun member => distinct.2.2 _ member _ (by simp) rfl
      rw [List.foldl_cons, put_of_not_mem pair.2 new,
        ih (before ++ [pair]) (by simpa using distinct), List.append_assoc, List.singleton_append]
  exact filed [] pairs distinct

/-- Of the pairs with a text, the last one is found. -/
theorem get?_ofPairs (key : Text) (pairs : List (Text × α)) :
    get? key (ofPairs pairs) = get? key pairs.reverse := by
  have filed (pairs : List (Text × α)) (before : Register α) :
      get? key (pairs.foldl (fun register pair => put pair.1 pair.2 register) before) =
        (get? key pairs.reverse).or (get? key before) := by
    induction pairs generalizing before with
    | nil => rfl
    | cons pair later ih =>
      have opened : get? key (put pair.1 pair.2 before) =
          (get? key [pair]).or (get? key before) := by
        rw [get?_put]
        by_cases same : pair.1 = key <;> simp [get?, same]
      rw [List.foldl_cons, ih, opened, List.reverse_cons, get?_append, Option.or_assoc]
  rw [ofPairs, filed, get?_nil, Option.or_none]

theorem nodup_keys_put (key : Text) (value : α) {register : Register α}
    (distinct : register.keys.Nodup) : (put key value register).keys.Nodup := by
  induction register with
  | nil => simp [put]
  | cons entry rest ih =>
    rw [keys_cons, List.nodup_cons] at distinct
    by_cases same : entry.1 = key
    · rw [put, if_pos same, keys_cons, List.nodup_cons]
      exact ⟨same ▸ distinct.1, distinct.2⟩
    · rw [put, if_neg same, keys_cons, List.nodup_cons]
      refine ⟨fun member => ?_, ih distinct.2⟩
      rw [← isSome_get?, get?_put_of_ne same, isSome_get?] at member
      exact distinct.1 member

/-- Each text has its place in a register that results from pairs. -/
theorem nodup_keys_ofPairs (pairs : List (Text × α)) : (ofPairs pairs).keys.Nodup := by
  have filed (pairs : List (Text × α)) {before : Register α} (distinct : before.keys.Nodup) :
      (pairs.foldl (fun register pair => put pair.1 pair.2 register) before).keys.Nodup := by
    induction pairs generalizing before with
    | nil => exact distinct
    | cons pair later ih => exact ih (nodup_keys_put pair.1 pair.2 distinct)
  exact filed pairs List.nodup_nil

/-- What is filed once is found. -/
theorem get?_of_mem {register : Register α} (distinct : register.keys.Nodup) {key : Text}
    {value : α} (filed : (key, value) ∈ register) : get? key register = some value := by
  induction register with
  | nil => simp at filed
  | cons entry rest ih =>
    rw [keys, List.map_cons, List.nodup_cons] at distinct
    rcases List.mem_cons.mp filed with rfl | later
    · simp [get?]
    · have other : entry.1 ≠ key := fun same =>
        distinct.1 (same ▸ List.mem_map_of_mem (f := Prod.fst) later)
      rw [get?, if_neg other, ih distinct.2 later]

end Register

end AuditTrail
