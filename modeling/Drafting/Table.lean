namespace Drafting

structure Table (α : Type) where
  entries : List (String × α)
  sorted : entries.Pairwise (fun a b => a.1 < b.1)

namespace Table

variable {α : Type}

@[ext] theorem ext {t u : Table α} (h : t.entries = u.entries) : t = u := by
  cases t; cases u; cases h; rfl

def empty : Table α := ⟨[], .nil⟩

instance : Inhabited (Table α) := ⟨empty⟩

/-- A name that is already there keeps its place and takes the new value. -/
def put (name : String) (value : α) : List (String × α) → List (String × α)
  | [] => [(name, value)]
  | e :: es =>
    if name < e.1 then (name, value) :: e :: es
    else if e.1 = name then (name, value) :: es
    else e :: put name value es

theorem mem_put {name : String} {value : α} {es : List (String × α)} {e : String × α}
    (h : e ∈ put name value es) : e = (name, value) ∨ e ∈ es := by
  induction es with
  | nil => exact .inl (List.mem_singleton.1 h)
  | cons d ds ih =>
    simp only [put] at h
    split at h
    · exact List.mem_cons.1 h
    split at h
    · exact (List.mem_cons.1 h).imp id (List.mem_cons_of_mem _)
    · rcases List.mem_cons.1 h with h | h
      · exact .inr (h ▸ List.mem_cons_self)
      · exact (ih h).imp id (List.mem_cons_of_mem _)

theorem sorted_put (name : String) (value : α) {es : List (String × α)}
    (h : es.Pairwise (fun a b => a.1 < b.1)) :
    (put name value es).Pairwise (fun a b => a.1 < b.1) := by
  induction es with
  | nil => simp [put]
  | cons d ds ih =>
    have ⟨hd, hds⟩ := List.pairwise_cons.1 h
    simp only [put]
    split
    · rename_i lt
      refine List.pairwise_cons.2 ⟨fun e he => ?_, h⟩
      rcases List.mem_cons.1 he with rfl | he
      · exact lt
      · exact String.lt_trans lt (hd e he)
    split
    · rename_i eq
      exact List.pairwise_cons.2 ⟨fun e he => eq ▸ hd e he, hds⟩
    · rename_i nlt ne
      refine List.pairwise_cons.2 ⟨fun e he => ?_, ih hds⟩
      rcases mem_put he with rfl | he
      · have gt : d.1 ≤ name := String.not_lt.1 nlt
        exact String.not_le.1 fun le => ne (String.le_antisymm gt le)
      · exact hd e he

def insert (t : Table α) (name : String) (value : α) : Table α :=
  ⟨put name value t.entries, sorted_put name value t.sorted⟩

/-- Of entries with one name the last stays. -/
def ofList (es : List (String × α)) : Table α :=
  es.foldl (fun t e => t.insert e.1 e.2) empty

def get? (t : Table α) (name : String) : Option α :=
  (t.entries.find? fun e => e.1 == name).map (·.2)

def names (t : Table α) : List String := t.entries.map (·.1)

@[simp] theorem get?_empty (name : String) : (empty : Table α).get? name = none := rfl

theorem find?_put (name : String) (value : α) (es : List (String × α)) (k : String) :
    (put name value es).find? (fun e => e.1 == k) =
      if k = name then some (name, value) else es.find? fun e => e.1 == k := by
  induction es with
  | nil =>
    by_cases h : k = name
    · simp [put, h]
    · simp [put, h, Ne.symm h]
  | cons d ds ih =>
    simp only [put]
    by_cases h : k = name
    · subst h
      split
      · simp
      split
      · simp
      · rename_i ne
        simpa [ne] using ih
    · have h' : name ≠ k := Ne.symm h
      split
      · simp [h']
      split
      · rename_i eq
        simp [h', eq]
      · simp only [List.find?_cons, ih, if_neg h]

@[simp] theorem get?_insert_self (t : Table α) (name : String) (value : α) :
    (t.insert name value).get? name = some value := by
  simp [get?, insert, find?_put]

theorem get?_insert_of_ne (t : Table α) {name k : String} (value : α) (ne : k ≠ name) :
    (t.insert name value).get? k = t.get? k := by
  simp [get?, insert, find?_put, ne]

theorem get?_of_mem (t : Table α) {name : String} {value : α} (h : (name, value) ∈ t.entries) :
    t.get? name = some value := by
  obtain ⟨before, after, split⟩ := List.append_of_mem h
  have sorted := t.sorted
  rw [split, List.pairwise_append] at sorted
  have others : ∀ e ∈ before, e.1 ≠ name := fun e he same => by
    have lt := sorted.2.2 e he (name, value) (by simp)
    exact String.lt_irrefl name (same ▸ lt)
  have first : t.entries.find? (fun e => e.1 == name) = some (name, value) :=
    List.find?_eq_some_iff_append.2 ⟨by simp, before, after, split, by simpa using others⟩
  rw [get?, first]
  rfl

theorem put_last {name : String} (value : α) {es : List (String × α)}
    (h : ∀ e ∈ es, e.1 < name) : put name value es = es ++ [(name, value)] := by
  induction es with
  | nil => rfl
  | cons d ds ih =>
    have lt := h d (by simp)
    have ne : d.1 ≠ name := fun same => String.lt_irrefl name (same ▸ lt)
    rw [put, if_neg (String.lt_asymm lt), if_neg ne, ih fun e he => h e (List.mem_cons_of_mem d he)]
    rfl

theorem entries_foldl_insert (t : Table α) {es : List (String × α)}
    (h : (t.entries ++ es).Pairwise (fun a b => a.1 < b.1)) :
    (es.foldl (fun t e => t.insert e.1 e.2) t).entries = t.entries ++ es := by
  induction es generalizing t with
  | nil => simp
  | cons e es ih =>
    have last : (t.insert e.1 e.2).entries = t.entries ++ [e] :=
      put_last e.2 fun d hd => (List.pairwise_append.1 h).2.2 d hd e (by simp)
    rw [List.foldl_cons, ih, last, List.append_assoc]
    · rfl
    · rw [last, List.append_assoc]
      exact h

theorem mem_foldl_insert {es : List (String × α)} {t : Table α} {e : String × α}
    (h : e ∈ (es.foldl (fun t e => t.insert e.1 e.2) t).entries) : e ∈ t.entries ∨ e ∈ es := by
  induction es generalizing t with
  | nil => exact .inl h
  | cons d ds ih =>
    rcases ih h with old | later
    · rcases mem_put old with rfl | old
      · exact .inr List.mem_cons_self
      · exact .inl old
    · exact .inr (List.mem_cons_of_mem d later)

/-- The entries of a table are among those it was made of. -/
theorem mem_of_mem_ofList {es : List (String × α)} {e : String × α}
    (h : e ∈ (ofList es).entries) : e ∈ es :=
  (mem_foldl_insert h).resolve_left List.not_mem_nil

theorem entries_ofList {es : List (String × α)} (h : es.Pairwise (fun a b => a.1 < b.1)) :
    (ofList es).entries = es :=
  entries_foldl_insert empty h

end Table

end Drafting
