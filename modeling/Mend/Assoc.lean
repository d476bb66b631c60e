/-!
# Keyed lists

A keyed list holds values under keys in the order in which the keys came. Putting a value under a key
that is there leaves the key where it is.
-/

namespace Mend.Assoc

variable {κ α : Type} [BEq κ]

/-- The list with a value under a key: in the place of the value that was there, else at the end. -/
def put (key : κ) (a : α) : List (κ × α) → List (κ × α)
  | [] => [(key, a)]
  | (k, b) :: es => if k == key then (k, a) :: es else (k, b) :: put key a es

/-- The list in which of the values under one key only the last is left. -/
def ofList (es : List (κ × α)) : List (κ × α) := es.foldl (fun done (k, a) => put k a done) []

theorem lookup_put [LawfulBEq κ] (key other : κ) (a : α) (es : List (κ × α)) :
    (put key a es).lookup other = if other == key then some a else es.lookup other := by
  induction es with
  | nil =>
    by_cases h : other = key
    · simp [put, h]
    · have hb : (other == key) = false := by simpa using h
      simp [put, List.lookup_cons, hb]
  | cons e es ih =>
    obtain ⟨k, b⟩ := e
    by_cases hk : k = key
    · subst hk
      by_cases h : other = k
      · simp [put, h]
      · have hb : (other == k) = false := by simpa using h
        simp [put, List.lookup_cons, hb]
    · have hkb : (k == key) = false := by simpa using hk
      rw [put, hkb, if_neg (by simp), List.lookup_cons, List.lookup_cons, ih]
      by_cases h : other = k
      · subst h; simp [hkb]
      · have hb : (other == k) = false := by simpa using h
        simp [hb]

section Laws

variable [LawfulBEq κ] (key : κ) (es : List (κ × α))

/-- The value that is put last stays. -/
theorem put_put (a b : α) : put key b (put key a es) = put key b es := by
  induction es with
  | nil => simp [put]
  | cons e es ih =>
    obtain ⟨k, c⟩ := e
    by_cases hk : k = key
    · simp [put, hk]
    · have hb : (k == key) = false := by simpa using hk
      simp [put, hb, ih]

/-- Putting the value that is there changes nothing. -/
theorem put_of_lookup {a : α} (h : es.lookup key = some a) : put key a es = es := by
  induction es with
  | nil => simp at h
  | cons e es ih =>
    obtain ⟨k, c⟩ := e
    rw [List.lookup_cons] at h
    by_cases hk : key = k
    · subst hk
      obtain rfl : c = a := by simpa using h
      simp [put]
    · have hb : (key == k) = false := by simpa using hk
      have hb2 : (k == key) = false := by simpa using fun e : k = key => hk e.symm
      rw [hb] at h
      rw [put, hb2, if_neg (by simp), ih h]

theorem mem_of_lookup {a : α} (h : es.lookup key = some a) : key ∈ es.map Prod.fst := by
  induction es with
  | nil => simp at h
  | cons e es ih =>
    obtain ⟨k, b⟩ := e
    by_cases hk : key = k
    · simp [hk]
    · have hb : (key == k) = false := by simpa using hk
      rw [List.lookup_cons, hb] at h
      exact List.mem_cons_of_mem _ (ih h)

/-- A key that is there keeps its place, and a new one comes last. -/
theorem map_fst_put [DecidableEq κ] (a : α) :
    (put key a es).map Prod.fst =
      if key ∈ es.map Prod.fst then es.map Prod.fst else es.map Prod.fst ++ [key] := by
  induction es with
  | nil => simp [put]
  | cons e es ih =>
    obtain ⟨k, b⟩ := e
    by_cases hk : k = key
    · simp [put, hk]
    · have hb : (k == key) = false := by simpa using hk
      have hne : key ≠ k := fun e => hk e.symm
      rw [put, hb, if_neg (by simp)]
      simp only [List.map_cons, ih, List.mem_cons, hne, false_or]
      split <;> simp

end Laws

end Mend.Assoc
