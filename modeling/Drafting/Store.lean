import Drafting.Param

namespace Drafting

/-- The `n`-th slot of a row, counted from one. -/
def slotAt? {α : Type} (row : List α) : (n : Nat) → Option α
  | 0 => none
  | i + 1 => row[i]?

def setSlot {α : Type} (row : List α) (n : Nat) (a : α) : List α :=
  match n with
  | 0 => row
  | i + 1 => row.set i a

theorem slotAt?_setSlot {α : Type} {row : List α} {n : Nat} {old : α}
    (h : slotAt? row n = some old) (a : α) (m : Nat) :
    slotAt? (setSlot row n a) m = if m = n then some a else slotAt? row m := by
  cases n with
  | zero => simp [slotAt?] at h
  | succ i =>
    cases m with
    | zero => simp [slotAt?]
    | succ j =>
      simp only [slotAt?] at h
      have hi := (List.getElem?_eq_some_iff.1 h).1
      by_cases hij : j = i
      · subst hij
        simp [slotAt?, setSlot, hi]
      · simp [slotAt?, setSlot, hij, Ne.symm hij]

theorem slotAt?_append {α : Type} (row : List α) (a : α) (m : Nat) :
    slotAt? (row ++ [a]) m = if m = row.length + 1 then some a else slotAt? row m := by
  cases m with
  | zero => simp [slotAt?]
  | succ j =>
    simp only [slotAt?, List.getElem?_append, Nat.add_right_cancel_iff]
    split
    · rw [if_neg (by omega)]
    · by_cases hj : j = row.length
      · simp [hj]
      · rw [if_neg hj, List.getElem?_eq_none (by simp; omega), List.getElem?_eq_none (by omega)]

@[ext] structure Cell (K : Type) where
  generation : Nat
  param : Param K
deriving DecidableEq, Repr

structure Store (K : Type) where
  slots : List (Option (Cell K))
  /-- The handles that are given next, the one whose slot was freed last in front. -/
  free : List Handle
  free_vacant : ∀ h ∈ free, slotAt? slots h.slot = some none
  free_distinct : free.Pairwise (fun h k => h.slot ≠ k.slot)

/-- The handle that comes after one that has ended. Generations count in steps of two. -/
def Handle.renewed (h : Handle) : Handle := ⟨h.slot, h.generation + 2⟩

namespace Store

variable {K : Type}

def empty : Store K := ⟨[], [], by simp, .nil⟩

def get? (s : Store K) (h : Handle) : Option (Param K) :=
  match slotAt? s.slots h.slot with
  | some (some c) => if c.generation = h.generation then some c.param else none
  | _ => none

theorem get?_eq_some_iff {s : Store K} {h : Handle} {p : Param K} :
    s.get? h = some p ↔ slotAt? s.slots h.slot = some (some ⟨h.generation, p⟩) := by
  unfold get?
  split
  · rename_i c hc
    rw [hc]
    by_cases hg : c.generation = h.generation
    · rw [if_pos hg, ← hg]
      simp [Cell.ext_iff]
    · rw [if_neg hg]
      simp [Cell.ext_iff, hg]
  · rename_i hn
    exact ⟨fun e => (nomatch e), fun e => absurd e (hn _)⟩

theorem slotAt?_of_get? {s : Store K} {h : Handle} (live : (s.get? h).isSome) :
    ∃ p, slotAt? s.slots h.slot = some (some ⟨h.generation, p⟩) :=
  let ⟨p, hp⟩ := Option.isSome_iff_exists.1 live
  ⟨p, get?_eq_some_iff.1 hp⟩

/-- The handle of the parameter that is inserted next: of the slot freed last, or of a new one. -/
def next (s : Store K) : Handle :=
  match s.free with
  | [] => ⟨s.slots.length + 1, 1⟩
  | h :: _ => h

def insert (s : Store K) (p : Param K) : Store K :=
  match hf : s.free with
  | [] => ⟨s.slots ++ [some ⟨1, p⟩], [], by simp, .nil⟩
  | h :: free =>
    have vacant := s.free_vacant h (by simp [hf])
    have distinct := List.pairwise_cons.1 (hf ▸ s.free_distinct)
    ⟨setSlot s.slots h.slot (some ⟨h.generation, p⟩), free,
      fun k hk => by
        rw [slotAt?_setSlot vacant, if_neg (Ne.symm (distinct.1 k hk))]
        exact s.free_vacant k (by simp [hf, hk]),
      distinct.2⟩

def erase (s : Store K) (h : Handle) : Store K :=
  if live : (s.get? h).isSome then
    have held := slotAt?_of_get? live
    have taken : ∀ k ∈ s.free, k.slot ≠ h.slot := fun k hk e => by
      obtain ⟨p, hp⟩ := held
      have := s.free_vacant k hk
      rw [e, hp] at this
      cases this
    ⟨setSlot s.slots h.slot none, h.renewed :: s.free,
      fun k hk => by
        obtain ⟨p, hp⟩ := held
        rw [slotAt?_setSlot hp]
        rcases List.mem_cons.1 hk with rfl | hk
        · simp [Handle.renewed]
        · rw [if_neg (taken k hk)]
          exact s.free_vacant k hk,
      List.pairwise_cons.2 ⟨fun k hk => Ne.symm (taken k hk), s.free_distinct⟩⟩
  else s

def update (s : Store K) (h : Handle) (f : Param K → Param K) : Store K :=
  match hp : s.get? h with
  | none => s
  | some p =>
    { s with
      slots := setSlot s.slots h.slot (some ⟨h.generation, f p⟩)
      free_vacant := fun k hk => by
        have held := get?_eq_some_iff.1 hp
        rw [slotAt?_setSlot held]
        split
        · rename_i e
          have := s.free_vacant k hk
          rw [e, held] at this
          cases this
        · exact s.free_vacant k hk }

def handles (s : Store K) : List Handle :=
  s.slots.zipIdx.filterMap fun (c, i) => c.map fun c => ⟨i + 1, c.generation⟩

def count (s : Store K) : Nat := s.handles.length

def eraseAll (s : Store K) (hs : List Handle) : Store K := hs.foldl erase s

def clear (s : Store K) : Store K := s.eraseAll s.handles

@[simp] theorem get?_empty (h : Handle) : (empty : Store K).get? h = none := by
  unfold get? empty
  cases h.slot <;> rfl

theorem slotAt?_next (s : Store K) (c : Cell K) : slotAt? s.slots s.next.slot ≠ some (some c) := by
  unfold next
  split
  · simp [slotAt?]
  · rename_i h free hf
    rw [s.free_vacant h (by simp [hf])]
    simp

@[simp] theorem get?_next (s : Store K) : s.get? s.next = none := by
  unfold get?
  split
  · rename_i c hc
    exact absurd hc (s.slotAt?_next c)
  · rfl

theorem slotAt?_insert (s : Store K) (p : Param K) (n : Nat) :
    slotAt? (s.insert p).slots n =
      if n = s.next.slot then some (some ⟨s.next.generation, p⟩) else slotAt? s.slots n := by
  unfold insert next
  split
  · rename_i hf
    simp only [hf, slotAt?_append]
  · rename_i h free hf
    simp only [hf]
    exact slotAt?_setSlot (s.free_vacant h (by simp [hf])) _ n

@[simp] theorem get?_insert_next (s : Store K) (p : Param K) :
    (s.insert p).get? s.next = some p := by
  rw [get?_eq_some_iff, slotAt?_insert, if_pos rfl]

theorem get?_insert_of_ne (s : Store K) (p : Param K) {h : Handle} (ne : h ≠ s.next) :
    (s.insert p).get? h = s.get? h := by
  refine Option.ext fun q => ?_
  rw [get?_eq_some_iff, get?_eq_some_iff, slotAt?_insert]
  split
  · rename_i e
    constructor
    · intro hq
      injection hq with hq
      injection hq with hq
      injection hq with hg
      exact absurd (Handle.ext e hg.symm) ne
    · intro hq
      rw [e] at hq
      exact absurd hq (s.slotAt?_next _)
  · rfl

@[simp] theorem get?_erase_self (s : Store K) (h : Handle) : (s.erase h).get? h = none := by
  unfold erase
  split
  · rename_i live
    obtain ⟨p, hp⟩ := slotAt?_of_get? live
    unfold get?
    simp only [slotAt?_setSlot hp, ite_true]
  · rename_i dead
    simpa using dead

theorem get?_erase_of_ne (s : Store K) {h k : Handle} (ne : k ≠ h) :
    (s.erase h).get? k = s.get? k := by
  unfold erase
  split
  · rename_i live
    obtain ⟨p, hp⟩ := slotAt?_of_get? live
    refine Option.ext fun q => ?_
    rw [get?_eq_some_iff, get?_eq_some_iff]
    simp only [slotAt?_setSlot hp]
    split
    · rename_i e
      rw [e, hp]
      constructor
      · intro hq
        cases hq
      · intro hq
        injection hq with hq
        injection hq with hq
        injection hq with hg
        exact absurd (Handle.ext e hg.symm) ne
    · rfl
  · rfl

@[simp] theorem get?_update_self (s : Store K) (h : Handle) (f : Param K → Param K) :
    (s.update h f).get? h = (s.get? h).map f := by
  unfold update
  split
  · rename_i hp
    simp [hp]
  · rename_i p hp
    refine Eq.trans (b := some (f p)) ?_ (by simp [hp])
    rw [get?_eq_some_iff]
    simp only [slotAt?_setSlot (get?_eq_some_iff.1 hp), ite_true]

theorem get?_update_of_ne (s : Store K) {h k : Handle} (ne : k ≠ h) (f : Param K → Param K) :
    (s.update h f).get? k = s.get? k := by
  unfold update
  split
  · rfl
  · rename_i p hp
    have held := get?_eq_some_iff.1 hp
    refine Option.ext fun q => ?_
    rw [get?_eq_some_iff, get?_eq_some_iff]
    simp only [slotAt?_setSlot held]
    split
    · rename_i e
      rw [e, held]
      constructor <;> intro hq <;> injection hq with hq <;> injection hq with hq <;>
        injection hq with hg <;> exact absurd (Handle.ext e hg.symm) ne
    · rfl

theorem mem_handles {s : Store K} {h : Handle} : h ∈ s.handles ↔ (s.get? h).isSome := by
  simp only [handles, List.mem_filterMap, List.mem_zipIdx_iff_getElem?, Option.map_eq_some_iff,
    Option.isSome_iff_exists, get?_eq_some_iff]
  constructor
  · rintro ⟨⟨_, i⟩, hi, c, rfl, rfl⟩
    exact ⟨c.param, hi⟩
  · rintro ⟨p, hp⟩
    cases h with
    | mk n g =>
      cases n with
      | zero => simp [slotAt?] at hp
      | succ i => exact ⟨(some ⟨g, p⟩, i), hp, ⟨g, p⟩, rfl, rfl⟩

end Store

end Drafting
