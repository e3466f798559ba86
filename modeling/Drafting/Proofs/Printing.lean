import Drafting.Proofs.Spelling

namespace Drafting.Json

def Blank (b : List Char) : Prop := ∀ c ∈ b, isSpace c

theorem blank_nil : Blank [] := by simp [Blank]

theorem skip_blank {b : List Char} (h : Blank b) (s : List Char) : skip (b ++ s) = skip s :=
  List.dropWhile_append_of_pos h

theorem skip_cons {c : Char} (h : isSpace c = false) (s : List Char) : skip (c :: s) = c :: s := by
  rw [skip, List.dropWhile_cons_of_neg (by simp [h])]

/-- Blanks before a value are passed over. -/
theorem value?_blank {b : List Char} (h : Blank b) (n : Nat) (s : List Char) :
    value? n (b ++ s) = value? n s := by
  cases n with
  | zero => rfl
  | succ n => rw [value?, value?, skip_blank h]

theorem blank_lineBreak (level : Nat) : Blank (lineBreak level) := by
  intro c hc
  rcases List.mem_cons.mp hc with rfl | hc
  · rfl
  · rw [List.eq_of_mem_replicate hc]
    rfl

theorem stops_cons {c : Char} (h : c.isDigit = false ∧ c ≠ '.' ∧ c ≠ 'e' ∧ c ≠ 'E')
    (r : List Char) : Stops (c :: r) := by
  intro d hd
  cases hd
  exact h

/-- A number ends before a blank and before what may stand after blanks. -/
theorem stops_blank {b : List Char} (hb : Blank b) {r : List Char} (h : Stops r) :
    Stops (b ++ r) := by
  cases b with
  | nil => exact h
  | cons c b =>
    have space := hb c (by simp)
    refine stops_cons ?_ _
    simp only [isSpace, Bool.or_eq_true, beq_iff_eq] at space
    rcases space with ((rfl | rfl) | rfl) | rfl <;> decide

/-- The text is read as the value, with fuel for each of its characters. -/
structure Reads (j : Json) (cs : List Char) : Prop where
  starts : ∃ c r, cs = c :: r ∧ isSpace c = false ∧ c ≠ ']'
  read : ∀ n rest, cs.length < n → Stops rest → value? n (cs ++ rest) = some (j, rest)

structure ReadsItems (js : List Json) (cs : List Char) : Prop where
  stops : ∀ rest, Stops (cs ++ rest)
  read : ∀ n rest, cs.length < n → items? n (cs ++ rest) = some (js, rest)

structure ReadsMembers (ms : List (Option String × Json)) (cs : List Char) : Prop where
  stops : ∀ rest, Stops (cs ++ rest)
  read : ∀ n rest, cs.length < n → members? n (cs ++ rest) = some (ms, rest)

section Texts

variable {j : Json} {js : List Json} {ms : List (Option String × Json)} {k : String}
  {b d cs ds : List Char}

/-- A text that opens no bracket is read in one piece. -/
theorem Reads.scalar {c : Char} {r : List Char}
    (first : isSpace c = false ∧ c ≠ ']' ∧ c ≠ '[' ∧ c ≠ '\x7b')
    (h : ∀ rest, Stops rest → scalar? (c :: r ++ rest) = some (j, rest)) : Reads j (c :: r) where
  starts := ⟨c, r, rfl, first.1, first.2.1⟩
  read := by
    intro n rest less stop
    obtain ⟨m, rfl⟩ := Nat.exists_eq_add_one_of_ne_zero (Nat.ne_of_gt (Nat.zero_lt_of_lt less))
    rw [value?, List.cons_append, skip_cons first.1]
    split
    · rename_i same
      exact absurd (List.cons.inj same).1 first.2.2.1
    · rename_i same
      exact absurd (List.cons.inj same).1 first.2.2.2
    · exact h rest stop

theorem Reads.array_nil : Reads (.array []) ['[', ']'] where
  starts := ⟨_, _, rfl, rfl, by decide⟩
  read := by
    intro n rest less _
    obtain ⟨m, rfl⟩ := Nat.exists_eq_add_one_of_ne_zero (Nat.ne_of_gt (Nat.zero_lt_of_lt less))
    rfl

/-- The first item has no comma before it, and all others have. -/
theorem Reads.array (hb : Blank b) (h : Reads j cs) (hs : ReadsItems js ds) :
    Reads (.array (j :: js)) ('[' :: (b ++ (cs ++ ds))) where
  starts := ⟨_, _, rfl, rfl, by decide⟩
  read := by
    intro n rest less _
    obtain ⟨m, rfl⟩ := Nat.exists_eq_add_one_of_ne_zero (Nat.ne_of_gt (Nat.zero_lt_of_lt less))
    rw [List.length_cons, List.length_append, List.length_append] at less
    have first := h.read m (ds ++ rest) (by omega) (hs.stops rest)
    have others := hs.read m rest (by omega)
    obtain ⟨c, r, rfl, space, bracket⟩ := h.starts
    have inner : skip (b ++ (c :: r ++ ds) ++ rest) = c :: r ++ (ds ++ rest) := by
      rw [List.append_assoc, List.append_assoc, skip_blank hb, List.cons_append, skip_cons space]
    rw [value?, List.cons_append, skip_cons rfl]
    simp only [inner]
    split
    · rename_i same
      exact absurd (List.cons.inj same).1 bracket
    · simp only [first, others, Option.bind_eq_bind, Option.bind_some]
      rfl

theorem ReadsItems.nil (hb : Blank b) : ReadsItems [] (b ++ [']']) where
  stops := by
    intro rest
    rw [List.append_assoc]
    exact stops_blank hb (stops_cons (by decide) rest)
  read := by
    intro n rest less
    obtain ⟨m, rfl⟩ := Nat.exists_eq_add_one_of_ne_zero (Nat.ne_of_gt (Nat.zero_lt_of_lt less))
    rw [items?, List.append_assoc, skip_blank hb, List.cons_append, skip_cons rfl]
    rfl

theorem ReadsItems.cons (hb : Blank b) (h : Reads j cs) (hs : ReadsItems js ds) :
    ReadsItems (j :: js) (',' :: (b ++ (cs ++ ds))) where
  stops := fun _ => stops_cons (by decide) _
  read := by
    intro n rest less
    obtain ⟨m, rfl⟩ := Nat.exists_eq_add_one_of_ne_zero (Nat.ne_of_gt (Nat.zero_lt_of_lt less))
    rw [List.length_cons, List.length_append, List.length_append] at less
    have first := h.read m (ds ++ rest) (by omega) (hs.stops rest)
    have others := hs.read m rest (by omega)
    have inner : value? m (b ++ (cs ++ ds) ++ rest) = some (j, ds ++ rest) := by
      rw [List.append_assoc, List.append_assoc, value?_blank hb, first]
    rw [items?, List.cons_append, skip_cons rfl]
    simp only [inner, others, Option.bind_eq_bind, Option.bind_some]
    rfl

/-- A name, a colon and the text of a value are read as a member. -/
theorem member?_reads (hb : Blank b) (hd : Blank d) (h : Reads j cs) {n : Nat} {rest : List Char}
    (less : (b ++ (quoted (some k) ++ ':' :: (d ++ cs))).length < n) (stop : Stops rest) :
    member? n (b ++ (quoted (some k) ++ ':' :: (d ++ (cs ++ rest)))) =
      some ((some k, j), rest) := by
  obtain ⟨m, rfl⟩ := Nat.exists_eq_add_one_of_ne_zero (Nat.ne_of_gt (Nat.zero_lt_of_lt less))
  have enough : cs.length < m := by
    simp only [quoted, List.length_append, List.length_cons] at less
    omega
  have name : quoted (some k) ++ ':' :: (d ++ (cs ++ rest)) =
      '"' :: (k.toList.flatMap escape ++ '"' :: ':' :: (d ++ (cs ++ rest))) := by
    simp [quoted]
  have value : value? m (d ++ (cs ++ rest)) = some (j, rest) := by
    rw [value?_blank hd, h.read m rest enough stop]
  rw [member?, skip_blank hb, name, skip_cons rfl]
  simp only [string?_text, Option.bind_eq_bind, Option.bind_some]
  rw [skip_cons rfl]
  simp only [value, Option.bind_some]
  rfl

theorem ReadsMembers.nil (hb : Blank b) : ReadsMembers [] (b ++ ['\x7d']) where
  stops := by
    intro rest
    rw [List.append_assoc]
    exact stops_blank hb (stops_cons (by decide) rest)
  read := by
    intro n rest less
    obtain ⟨m, rfl⟩ := Nat.exists_eq_add_one_of_ne_zero (Nat.ne_of_gt (Nat.zero_lt_of_lt less))
    rw [members?, List.append_assoc, skip_blank hb, List.cons_append, skip_cons rfl]
    rfl

theorem ReadsMembers.cons (hb : Blank b) (hd : Blank d) (h : Reads j cs)
    (hs : ReadsMembers ms ds) :
    ReadsMembers ((some k, j) :: ms)
      (',' :: (b ++ (quoted (some k) ++ ':' :: (d ++ (cs ++ ds))))) where
  stops := fun _ => stops_cons (by decide) _
  read := by
    intro n rest less
    obtain ⟨m, rfl⟩ := Nat.exists_eq_add_one_of_ne_zero (Nat.ne_of_gt (Nat.zero_lt_of_lt less))
    simp only [List.length_cons, List.length_append] at less
    have first := member?_reads (k := k) (n := m) hb hd h
      (by simp only [List.length_append, List.length_cons]; omega) (hs.stops rest)
    have others := hs.read m rest (by omega)
    rw [members?, List.cons_append, skip_cons rfl]
    simp only [List.append_assoc, List.cons_append, first, others, Option.bind_eq_bind,
      Option.bind_some]
    rfl

theorem Reads.object_nil : Reads (.object []) ['\x7b', '\x7d'] where
  starts := ⟨_, _, rfl, rfl, by decide⟩
  read := by
    intro n rest less _
    obtain ⟨m, rfl⟩ := Nat.exists_eq_add_one_of_ne_zero (Nat.ne_of_gt (Nat.zero_lt_of_lt less))
    rfl

theorem Reads.object (hb : Blank b) (hd : Blank d) (h : Reads j cs) (hs : ReadsMembers ms ds) :
    Reads (.object ((some k, j) :: ms))
      ('\x7b' :: (b ++ (quoted (some k) ++ ':' :: (d ++ (cs ++ ds))))) where
  starts := ⟨_, _, rfl, rfl, by decide⟩
  read := by
    intro n rest less _
    obtain ⟨m, rfl⟩ := Nat.exists_eq_add_one_of_ne_zero (Nat.ne_of_gt (Nat.zero_lt_of_lt less))
    simp only [List.length_cons, List.length_append] at less
    -- the blanks before the name are skipped by the object already
    have first := member?_reads (b := []) (k := k) (n := m) blank_nil hd h
      (by simp only [List.length_append, List.length_cons, List.length_nil]; omega) (hs.stops rest)
    have others := hs.read m rest (by omega)
    have inner : skip (b ++ (quoted (some k) ++ ':' :: (d ++ (cs ++ ds))) ++ rest) =
        quoted (some k) ++ ':' :: (d ++ (cs ++ (ds ++ rest))) := by
      rw [List.append_assoc, skip_blank hb]
      simp only [List.append_assoc, List.cons_append]
      exact skip_cons rfl _
    rw [value?, List.cons_append, skip_cons rfl]
    simp only [inner]
    split
    · rename_i same
      cases (List.cons.inj same).1
    · rw [List.nil_append] at first
      simp only [first, others, Option.bind_eq_bind, Option.bind_some]
      rfl

end Texts

theorem reads_number {l : Decimal.Literal} (h : Spelt l) : Reads (.number l) l.chars := by
  -- a number starts with a sign or a digit, and no other value does
  have first : ∃ c r, l.chars = c :: r ∧ (c = '-' ∨ c.isDigit) := by
    rw [chars_eq]
    cases l.negative with
    | true => exact ⟨_, _, rfl, .inl rfl⟩
    | false =>
      rcases h.whole with zero | ⟨nonempty, -, digits⟩
      · rw [zero]
        exact ⟨_, _, rfl, .inr rfl⟩
      · obtain ⟨d, ds, whole⟩ := List.exists_cons_of_ne_nil nonempty
        rw [whole]
        exact ⟨_, _, rfl, .inr (digits d (by simp [whole]))⟩
  obtain ⟨c, r, same, starts⟩ := first
  have other : isSpace c = false ∧ c ∉ [']', '[', '\x7b', 'n', 't', 'f', '"'] := by
    rcases starts with rfl | digit
    · decide
    · refine ⟨?_, fun hc => ?_⟩
      · by_contra space
        simp only [isSpace, Bool.not_eq_false, Bool.or_eq_true, beq_iff_eq] at space
        rcases space with ((rfl | rfl) | rfl) | rfl <;> cases digit
      · simp only [List.mem_cons, List.not_mem_nil, or_false] at hc
        rcases hc with rfl | rfl | rfl | rfl | rfl | rfl | rfl <;> cases digit
  simp only [List.mem_cons, List.not_mem_nil, or_false, not_or] at other
  obtain ⟨space, bracket, array, object, n, t, f, quote⟩ := other
  rw [same]
  refine .scalar ⟨space, bracket, array, object⟩ fun rest stop => ?_
  rw [← same, scalar?.eq_5, number?_spelt h stop, Option.map_some]
  · exact fun _ h => n (List.cons.inj (same ▸ h)).1
  · exact fun _ h => t (List.cons.inj (same ▸ h)).1
  · exact fun _ h => f (List.cons.inj (same ▸ h)).1
  · exact fun _ h => quote (List.cons.inj (same ▸ h)).1

/-- A string is read back whatever its characters are, since those that end it are escaped. -/
theorem reads_string (s : String) : Reads (.string (some s)) (quoted (some s)) := by
  refine .scalar (by decide) fun rest _ => ?_
  have text : '"' :: ((s.toList.flatMap escape ++ ['"']) ++ rest) =
      '"' :: (s.toList.flatMap escape ++ '"' :: rest) := by simp
  refine (congrArg scalar? text).trans ?_
  rw [scalar?, string?_text]
  rfl

/-- A member is printed if its name is a text and its value can be printed. -/
theorem allMembers_cons_iff {p : Decimal.Literal → Bool} {k : Option String} {j : Json}
    {ms : List (Option String × Json)} :
    allMembers Option.isSome p ((k, j) :: ms) ↔
      (∃ name, k = some name) ∧ j.all Option.isSome p ∧ allMembers Option.isSome p ms := by
  rw [allMembers, Bool.and_eq_true_iff, Bool.and_eq_true_iff, Option.isSome_iff_exists, and_assoc]

mutual

/-- Every value whose strings are texts and whose numbers are of digits is read back. -/
theorem reads_prettyChars (level : Nat) (j : Json)
    (h : j.all Option.isSome fun l => decide (Spelt l)) : Reads j (prettyChars level j) := by
  cases j with
  | null => exact .scalar (by decide) fun _ _ => rfl
  | bool b => cases b <;> exact .scalar (by decide) fun _ _ => rfl
  | number l => exact reads_number (of_decide_eq_true h)
  | string s =>
    obtain ⟨s, rfl⟩ := Option.isSome_iff_exists.mp h
    exact reads_string s
  | array items =>
    cases items with
    | nil => exact .array_nil
    | cons j js =>
      obtain ⟨first, others⟩ := Bool.and_eq_true_iff.mp h
      rw [prettyChars, List.append_assoc]
      exact .array (blank_lineBreak (level + 1)) (reads_prettyChars (level + 1) j first)
        (reads_prettyItems level js others)
  | object members =>
    cases members with
    | nil => exact .object_nil
    | cons m ms =>
      obtain ⟨k, j⟩ := m
      obtain ⟨⟨k, rfl⟩, first, others⟩ := allMembers_cons_iff.mp h
      rw [prettyChars, List.append_assoc, List.append_assoc]
      exact .object (d := [' ']) (blank_lineBreak (level + 1)) (by simp [Blank, isSpace])
        (reads_prettyChars (level + 1) j first) (reads_prettyMembers level ms others)

theorem reads_prettyItems (level : Nat) (js : List Json)
    (h : allItems Option.isSome (fun l => decide (Spelt l)) js) :
    ReadsItems js (prettyItems level js) := by
  cases js with
  | nil => exact .nil (blank_lineBreak level)
  | cons j js =>
    obtain ⟨first, others⟩ := Bool.and_eq_true_iff.mp h
    rw [prettyItems, List.append_assoc]
    exact .cons (blank_lineBreak (level + 1)) (reads_prettyChars (level + 1) j first)
      (reads_prettyItems level js others)

theorem reads_prettyMembers (level : Nat) (ms : List (Option String × Json))
    (h : allMembers Option.isSome (fun l => decide (Spelt l)) ms) :
    ReadsMembers ms (prettyMembers level ms) := by
  cases ms with
  | nil => exact .nil (blank_lineBreak level)
  | cons m ms =>
    obtain ⟨k, j⟩ := m
    obtain ⟨⟨k, rfl⟩, first, others⟩ := allMembers_cons_iff.mp h
    rw [prettyMembers, List.append_assoc, List.append_assoc]
    exact .cons (d := [' ']) (blank_lineBreak (level + 1)) (by simp [Blank, isSpace])
      (reads_prettyChars (level + 1) j first) (reads_prettyMembers level ms others)

end

mutual

/-- Without blanks between its parts a value is read back as well. -/
theorem reads_chars (j : Json) (h : j.all Option.isSome fun l => decide (Spelt l)) :
    Reads j j.chars := by
  cases j with
  | null => exact .scalar (by decide) fun _ _ => rfl
  | bool b => cases b <;> exact .scalar (by decide) fun _ _ => rfl
  | number l => exact reads_number (of_decide_eq_true h)
  | string s =>
    obtain ⟨s, rfl⟩ := Option.isSome_iff_exists.mp h
    exact reads_string s
  | array items =>
    cases items with
    | nil => exact .array_nil
    | cons j js =>
      obtain ⟨first, others⟩ := Bool.and_eq_true_iff.mp h
      exact .array blank_nil (reads_chars j first) (reads_itemsChars js others)
  | object members =>
    cases members with
    | nil => exact .object_nil
    | cons m ms =>
      obtain ⟨k, j⟩ := m
      obtain ⟨⟨k, rfl⟩, first, others⟩ := allMembers_cons_iff.mp h
      exact .object blank_nil blank_nil (reads_chars j first) (reads_membersChars ms others)

theorem reads_itemsChars (js : List Json)
    (h : allItems Option.isSome (fun l => decide (Spelt l)) js) :
    ReadsItems js (itemsChars js) := by
  cases js with
  | nil => exact .nil blank_nil
  | cons j js =>
    obtain ⟨first, others⟩ := Bool.and_eq_true_iff.mp h
    exact .cons blank_nil (reads_chars j first) (reads_itemsChars js others)

theorem reads_membersChars (ms : List (Option String × Json))
    (h : allMembers Option.isSome (fun l => decide (Spelt l)) ms) :
    ReadsMembers ms (membersChars ms) := by
  cases ms with
  | nil => exact .nil blank_nil
  | cons m ms =>
    obtain ⟨k, j⟩ := m
    obtain ⟨⟨k, rfl⟩, first, others⟩ := allMembers_cons_iff.mp h
    exact .cons blank_nil blank_nil (reads_chars j first) (reads_membersChars ms others)

end

/-- A text that stands for a value is read as a whole. -/
theorem Reads.whole {j : Json} {cs : List Char} (h : Reads j cs) :
    read? (String.ofList cs) = some j := by
  have reads := h.read (2 * cs.length + 1) [] (by omega) (by simp [Stops])
  rw [List.append_nil] at reads
  rw [read?, String.toList_ofList, reads]
  rfl

/-- A whole text is read back. -/
theorem read?_pretty {j : Json} (h : j.all Option.isSome fun l => decide (Spelt l)) :
    read? j.pretty = some j := (reads_prettyChars 0 j h).whole

/-- Blanks are no part of a value, so that it is read back without them too. -/
theorem read?_compact {j : Json} (h : j.all Option.isSome fun l => decide (Spelt l)) :
    read? j.compact = some j := (reads_chars j h).whole

end Drafting.Json
