import Drafting.Store
import Mathlib.Data.List.Nodup

namespace Drafting.Store

variable {K : Type}

theorem get?_eraseAll (s : Store K) (hs : List Handle) (h : Handle) :
    (s.eraseAll hs).get? h = if h ∈ hs then none else s.get? h := by
  induction hs generalizing s with
  | nil => simp [eraseAll]
  | cons k hs ih =>
    have step : s.eraseAll (k :: hs) = (s.erase k).eraseAll hs := rfl
    rw [step, ih]
    by_cases hk : h = k
    · subst hk
      simp
    · simp [get?_erase_of_ne s hk, hk]

theorem handles_nodup (s : Store K) : s.handles.Nodup := by
  have places : s.slots.zipIdx.Pairwise fun c d => c.2 ≠ d.2 := by
    have h : (s.slots.zipIdx.map Prod.snd).Nodup := by
      rw [List.zipIdx_map_snd]
      exact List.nodup_range'
    exact List.pairwise_map.mp h
  refine List.pairwise_filterMap.mpr (places.imp ?_)
  intro ⟨c, i⟩ ⟨d, j⟩ ne h hh k hk same
  obtain ⟨_, _, rfl⟩ := Option.map_eq_some_iff.mp hh
  obtain ⟨_, _, rfl⟩ := Option.map_eq_some_iff.mp hk
  exact ne (Nat.succ.inj (Handle.mk.inj same).1)

/-- `t` has new parameters under `hs`, and all others as `s` has them. -/
structure Gains (hs : List Handle) (s t : Store K) : Prop where
  new : ∀ h ∈ hs, s.get? h = none
  live : ∀ h ∈ hs, (t.get? h).isSome
  distinct : hs.Nodup
  others : ∀ h, h ∉ hs → t.get? h = s.get? h

namespace Gains

variable {hs ks : List Handle} {s t u : Store K}

theorem refl (s : Store K) : Gains [] s s := ⟨by simp, by simp, .nil, fun _ _ => rfl⟩

/-- A new parameter is under a handle that nothing was live under. -/
theorem insert (s : Store K) (p : Param K) : Gains [s.next] s (s.insert p) where
  new := by simp
  live := by simp
  distinct := List.nodup_singleton _
  others := fun h hh => s.get?_insert_of_ne p (by simpa using hh)

/-- What is live stays live. -/
theorem keeps (g : Gains hs s t) {h : Handle} (hh : (s.get? h).isSome) : (t.get? h).isSome := by
  by_cases hm : h ∈ hs
  · exact g.live h hm
  · rwa [g.others h hm]

/-- What was live is not among the new. -/
theorem apart (g : Gains hs s t) {h : Handle} (live : (s.get? h).isSome) : h ∉ hs := by
  intro hh
  rw [g.new h hh] at live
  cases live

theorem append (g : Gains hs s t) (g' : Gains ks t u) : Gains (hs ++ ks) s u := by
  have apart : ∀ h ∈ hs, h ∉ ks := fun h hh => g'.apart (g.live h hh)
  refine ⟨?_, ?_, ?_, ?_⟩
  · intro h hm
    by_cases hh : h ∈ hs
    · exact g.new h hh
    · rw [← g.others h hh]
      exact g'.new h ((List.mem_append.mp hm).resolve_left hh)
  · intro h hm
    rcases List.mem_append.mp hm with hh | hk
    · exact g'.keeps (g.live h hh)
    · exact g'.live h hk
  · exact List.nodup_append.mpr ⟨g.distinct, g'.distinct, fun h hh k hk e => apart h hh (e ▸ hk)⟩
  · intro h hm
    obtain ⟨hh, hk⟩ : h ∉ hs ∧ h ∉ ks := by simpa using hm
    rw [g'.others h hk, g.others h hh]

/-- Taking the new parameters away again leaves the old ones. -/
theorem eraseAll (g : Gains hs s t) (h : Handle) : (t.eraseAll hs).get? h = s.get? h := by
  rw [get?_eraseAll]
  split
  · rename_i hh
    exact (g.new h hh).symm
  · rename_i hh
    exact g.others h hh

/-- Taking other parameters away, before and after, does not show. -/
theorem eraseAll_both (g : Gains hs s t) (apart : ∀ h ∈ hs, h ∉ ks) :
    Gains hs (s.eraseAll ks) (t.eraseAll ks) := by
  refine ⟨?_, ?_, g.distinct, ?_⟩
  · intro h hh
    rw [get?_eraseAll, g.new h hh, ite_self]
  · intro h hh
    rw [get?_eraseAll, if_neg (apart h hh)]
    exact g.live h hh
  · intro h hh
    rw [get?_eraseAll, get?_eraseAll, g.others h hh]

end Gains

/-- Every live handle is in the list, in one place, and no other handle is. -/
structure Listed (hs : List Handle) (s : Store K) : Prop where
  distinct : hs.Nodup
  live : ∀ h, (s.get? h).isSome ↔ h ∈ hs

namespace Listed

variable {hs ks : List Handle} {s t : Store K}

theorem empty : Listed [] (empty : Store K) := ⟨.nil, by simp⟩

theorem perm (l : Listed hs s) (p : hs.Perm ks) : Listed ks s :=
  ⟨p.nodup_iff.mp l.distinct, fun h => (l.live h).trans p.mem_iff⟩

/-- Only what is live counts, not what it is. -/
theorem congr (l : Listed hs s) (h : ∀ k, (t.get? k).isSome = (s.get? k).isSome) : Listed hs t :=
  ⟨l.distinct, fun k => by rw [h k]; exact l.live k⟩

theorem gains (l : Listed hs s) (g : Gains ks s t) : Listed (hs ++ ks) t := by
  have apart : ∀ h ∈ hs, h ∉ ks := fun h hh => g.apart ((l.live h).mpr hh)
  have distinct : (hs ++ ks).Nodup :=
    List.nodup_append.mpr ⟨l.distinct, g.distinct, fun h hh k hk e => apart h hh (e ▸ hk)⟩
  refine ⟨distinct, fun h => ?_⟩
  by_cases hk : h ∈ ks
  · simp [hk, g.live h hk]
  · rw [g.others h hk, l.live h]
    simp [hk]

/-- Parameters that are taken away leave the list as well. -/
theorem eraseAll (l : Listed (hs ++ ks) s) : Listed ks (s.eraseAll hs) := by
  obtain ⟨_, distinct, apart⟩ := List.nodup_append.mp l.distinct
  refine ⟨distinct, fun h => ?_⟩
  rw [get?_eraseAll]
  split
  · rename_i hh
    have hk : h ∉ ks := fun hk => apart h hh h hk rfl
    simp [hk]
  · rename_i hh
    rw [l.live h]
    simp [hh]

/-- A store counts as many parameters as the list has, since none stands there twice. -/
theorem count (l : Listed hs s) : s.count = hs.length := by
  refine ((List.perm_ext_iff_of_nodup s.handles_nodup l.distinct).mpr fun h => ?_).length_eq
  rw [mem_handles, l.live]

end Listed

end Drafting.Store
