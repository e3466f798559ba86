import Drafting.Proofs.Allocation

namespace Drafting

variable {K : Type}

theorem length_setSlot {α : Type} (row : List α) (n : Nat) (a : α) :
    (setSlot row n a).length = row.length := by
  cases n with
  | zero => rfl
  | succ i => exact List.length_set

namespace Store

theorem free_update (s : Store K) (h : Handle) (f : Param K → Param K) :
    (s.update h f).free = s.free := by
  unfold update
  split <;> rfl

theorem length_slots_update (s : Store K) (h : Handle) (f : Param K → Param K) :
    (s.update h f).slots.length = s.slots.length := by
  unfold update
  split
  · rfl
  · exact length_setSlot _ _ _

/-- A slot holds a cell if the store shows its parameter under some generation. -/
theorem slots_of_get? {s t : Store K} (same : ∀ h, t.get? h = s.get? h) {i : Nat} {c : Cell K}
    (hs : s.slots[i]? = some (some c)) : t.slots[i]? = some (some c) := by
  have shown : s.get? ⟨i + 1, c.generation⟩ = some c.param := get?_eq_some_iff.mpr hs
  exact get?_eq_some_iff.mp ((same _).trans shown)

/-- A store is what it shows, the number of its slots and the handles that are free. -/
theorem eq_of_get? {s t : Store K} (free : t.free = s.free)
    (length : t.slots.length = s.slots.length) (same : ∀ h, t.get? h = s.get? h) : t = s := by
  have slots : t.slots = s.slots := by
    refine List.ext_getElem? fun i => ?_
    cases hs : s.slots[i]? with
    | none =>
      rw [List.getElem?_eq_none_iff] at hs ⊢
      omega
    | some x =>
      cases x with
      | some c => exact slots_of_get? same hs
      | none =>
        have inside := (List.getElem?_eq_some_iff.mp hs).1
        rw [← length] at inside
        rw [List.getElem?_eq_getElem inside]
        cases ht : t.slots[i] with
        | none => rfl
        | some c =>
          have filled := slots_of_get? (fun h => (same h).symm)
            (List.getElem?_eq_some_iff.mpr ⟨inside, ht⟩)
          rw [hs] at filled
          cases filled
  cases s
  cases t
  simp_all

variable {s t u : Store K} {h : Handle}

/-- The handle is behind what its slot has come to, so that it is not given again. -/
structure Given (s : Store K) (h : Handle) : Prop where
  inside : h.slot ≤ s.slots.length
  held : ∀ c, slotAt? s.slots h.slot = some (some c) → h.generation ≤ c.generation
  freed : ∀ k ∈ s.free, k.slot = h.slot → h.generation < k.generation

/-- Slots are counted from one, so that the last one is the length of the row. -/
theorem le_length_of_slotAt? {α : Type} {row : List α} {n : Nat} {a : α}
    (held : slotAt? row n = some a) : n ≤ row.length := by
  cases n with
  | zero => exact Nat.zero_le _
  | succ i => exact (List.getElem?_eq_some_iff.mp held).1

theorem given_of_live (live : (s.get? h).isSome) : s.Given h := by
  obtain ⟨p, hp⟩ := slotAt?_of_get? live
  refine ⟨le_length_of_slotAt? hp, fun c hc => ?_, fun k hk same => ?_⟩
  · rw [hp] at hc
    cases hc
    exact Nat.le_refl _
  · have vacant := s.free_vacant k hk
    rw [same, hp] at vacant
    cases vacant

/-- The next handle is ahead of all that were given, in a slot of its own or under a new
generation. -/
theorem not_given_next (s : Store K) : ¬ s.Given s.next := by
  intro given
  cases hf : s.free with
  | nil =>
    have inside := given.inside
    simp only [next, hf] at inside
    omega
  | cons k free =>
    have front : s.next = k := by simp only [next, hf]
    have less := given.freed k (by simp [hf]) (by rw [front])
    rw [front] at less
    omega

theorem mem_free_insert {p : Param K} {k : Handle} (hk : k ∈ (s.insert p).free) : k ∈ s.free := by
  unfold insert at hk
  split at hk
  · cases hk
  · rename_i h free hf
    rw [hf]
    exact List.mem_cons_of_mem h hk

theorem length_le_insert (s : Store K) (p : Param K) :
    s.slots.length ≤ (s.insert p).slots.length := by
  unfold insert
  split
  · simp
  · simp [length_setSlot]

theorem Given.insert (given : s.Given h) (p : Param K) : (s.insert p).Given h := by
  refine ⟨Nat.le_trans given.inside (s.length_le_insert p), fun c hc => ?_, fun k hk same => ?_⟩
  · rw [slotAt?_insert] at hc
    by_cases here : h.slot = s.next.slot
    · rw [if_pos here] at hc
      cases hc
      -- the slot is free and its handle is a later one, for else it would be a new slot
      cases hf : s.free with
      | nil =>
        have inside := given.inside
        simp only [next, hf] at here
        omega
      | cons k free =>
        have front : s.next = k := by simp only [next, hf]
        rw [front] at here ⊢
        exact Nat.le_of_lt (given.freed k (by simp [hf]) here.symm)
    · rw [if_neg here] at hc
      exact given.held c hc
  · exact given.freed k (mem_free_insert hk) same

/-- A slot that is freed goes on to its next generation, and the old handle stays behind. -/
theorem Given.erase (given : s.Given h) (k : Handle) : (s.erase k).Given h := by
  unfold Store.erase
  split
  · rename_i live
    obtain ⟨p, hp⟩ := slotAt?_of_get? live
    refine ⟨?_, fun c hc => ?_, fun m hm same => ?_⟩
    · simpa [length_setSlot] using given.inside
    · simp only [slotAt?_setSlot hp] at hc
      by_cases here : h.slot = k.slot
      · rw [if_pos here] at hc
        cases hc
      · rw [if_neg here] at hc
        exact given.held c hc
    · rcases List.mem_cons.mp hm with rfl | hm
      · have here : k.slot = h.slot := same
        have behind : h.generation ≤ k.generation := given.held ⟨k.generation, p⟩ (here ▸ hp)
        simp only [Handle.renewed]
        omega
      · exact given.freed m hm same
  · exact given

theorem Given.update (given : s.Given h) (k : Handle) (f : Param K → Param K) :
    (s.update k f).Given h := by
  refine ⟨?_, fun c hc => ?_, fun m hm same => ?_⟩
  · rw [length_slots_update]
    exact given.inside
  · unfold Store.update at hc
    split at hc
    · exact given.held c hc
    · rename_i p hp
      have old := get?_eq_some_iff.mp hp
      simp only [slotAt?_setSlot old] at hc
      by_cases here : h.slot = k.slot
      · rw [if_pos here] at hc
        cases hc
        exact given.held ⟨k.generation, p⟩ (here ▸ old)
      · rw [if_neg here] at hc
        exact given.held c hc
  · rw [free_update] at hm
    exact given.freed m hm same

/-- What was given stays given, and comes not to life again if it is gone. -/
structure Ages (s t : Store K) : Prop where
  given : ∀ h, s.Given h → t.Given h
  live : ∀ h, s.Given h → (t.get? h).isSome → (s.get? h).isSome

namespace Ages

theorem refl (s : Store K) : Ages s s := ⟨fun _ given => given, fun _ _ live => live⟩

theorem trans (a : Ages s t) (a' : Ages t u) : Ages s u :=
  ⟨fun h given => a'.given h (a.given h given),
    fun h given live => a.live h given (a'.live h (a.given h given) live)⟩

theorem insert (s : Store K) (p : Param K) : Ages s (s.insert p) := by
  refine ⟨fun h given => given.insert p, fun h given live => ?_⟩
  have old : h ≠ s.next := by
    rintro rfl
    exact s.not_given_next given
  rwa [s.get?_insert_of_ne p old] at live

/-- Of the handles that were given, one more is gone for good. -/
theorem erase (s : Store K) (k : Handle) : Ages s (s.erase k) := by
  refine ⟨fun h given => given.erase k, fun h given live => ?_⟩
  by_cases same : h = k
  · subst same
    simp at live
  · rwa [s.get?_erase_of_ne same] at live

/-- Changing a parameter gives no handle. -/
theorem update (s : Store K) (k : Handle) (f : Param K → Param K) : Ages s (s.update k f) := by
  refine ⟨fun h given => given.update k f, fun h given live => ?_⟩
  by_cases same : h = k
  · subst same
    simpa using live
  · rwa [s.get?_update_of_ne same] at live

theorem eraseAll (s : Store K) (ks : List Handle) : Ages s (s.eraseAll ks) := by
  induction ks generalizing s with
  | nil => exact .refl s
  | cons k ks ih => exact (erase s k).trans (ih (s.erase k))

/-- New parameters are under handles that were not given before. -/
theorem fresh {hs : List Handle} (a : Ages s t) (g : Gains hs s t) : ∀ h ∈ hs, ¬ s.Given h := by
  intro h hh given
  have live := a.live h given (g.live h hh)
  rw [g.new h hh] at live
  cases live

end Ages

end Store

end Drafting
