import DiagnosticBroker.Proofs.Json.Tokens

/-!
# Documents that were written are read back

Reading goes through the text of a document in the order in which it was written. Every value, item
and member takes at least one character, so that the length of the text is enough fuel.

Numbers are taken as what they are: a document is read back if each of its numbers is. That is so for
integers of 64 bits. The numeral of a double need not be read as the same double.

Results:
* `readValue_write`: a document is read back from the front of a text.
* `readDocument?_write`: a document is read back.
-/

namespace DiagnosticBroker.Json

/-! ## Measures of documents -/

mutual

/-- How deep containers are nested in a document. -/
def nesting : Json → Nat
  | arr items => nestingItems items + 1
  | obj members => nestingMembers members + 1
  | _ => 0

def nestingItems : List Json → Nat
  | [] => 0
  | j :: js => max j.nesting (nestingItems js)

def nestingMembers : List (String × Json) → Nat
  | [] => 0
  | (_, j) :: rest => max j.nesting (nestingMembers rest)

end

mutual

/-- The numbers that occur in a document. -/
def numbers : Json → List Number
  | num n => [n]
  | arr items => numbersItems items
  | obj members => numbersMembers members
  | _ => []

def numbersItems : List Json → List Number
  | [] => []
  | j :: js => j.numbers ++ numbersItems js

def numbersMembers : List (String × Json) → List Number
  | [] => []
  | (_, j) :: rest => j.numbers ++ numbersMembers rest

end

/-- A number is read back wherever it stands in a document. -/
def Number.Rereads (n : Number) : Prop :=
  ∀ rest, Delimited rest → readNumber (n.write ++ rest) = some (n, rest)

/-! ## How documents begin -/

/-- A character that a number may begin with. -/
def BeginsNumber (c : Char) : Prop := c = '-' ∨ isDigit c = true

theorem begins_of_readNumber {cs : List Char} {r : Number × List Char}
    (h : readNumber cs = some r) : ∃ c rest, cs = c :: rest ∧ BeginsNumber c := by
  unfold readNumber at h
  split at h
  · exact ⟨_, _, rfl, .inl rfl⟩
  · unfold readUnsigned at h
    split at h
    · exact ⟨_, _, rfl, .inr rfl⟩
    · split_ifs at h with hc
      exact ⟨_, _, rfl, .inr hc⟩
    · cases h

theorem Number.Rereads.begins {n : Number} (h : n.Rereads) :
    ∃ c cs, n.write = c :: cs ∧ BeginsNumber c := by
  have hread := h [] trivial
  rw [List.append_nil] at hread
  exact begins_of_readNumber hread

/-- A character that stands between tokens or before the next of them. -/
def separators : List Char := [' ', '\t', '\n', '\r', 'n', 't', 'f', '"', '[', ']', '\x7b', '\x7d']

theorem BeginsNumber.ne {c : Char} (h : BeginsNumber c) : ∀ d ∈ separators, c ≠ d := by
  have hdigits : separators.all (fun d => d ≠ '-' && !isDigit d) = true := by decide
  rintro d hd rfl
  have hc : c ≠ '-' ∧ isDigit c = false := by simpa using List.all_eq_true.mp hdigits c hd
  rcases h with rfl | h
  · exact hc.1 rfl
  · rw [hc.2] at h
    cases h

theorem skipSpace_cons {c : Char} (h : isSpace c = false) (cs : List Char) :
    skipSpace (c :: cs) = c :: cs := by
  rw [skipSpace, List.dropWhile_cons_of_neg (by rw [h]; exact Bool.false_ne_true)]

theorem BeginsNumber.skipSpace {c : Char} (h : BeginsNumber c) (cs : List Char) :
    Json.skipSpace (c :: cs) = c :: cs := by
  apply skipSpace_cons
  have hne := h.ne
  simp [isSpace, hne ' ' (by decide), hne '\t' (by decide), hne '\n' (by decide),
    hne '\r' (by decide)]

/-- No document begins with a blank or a closing bracket. -/
theorem write_begins {j : Json} (h : ∀ n ∈ j.numbers, n.Rereads) :
    ∃ c cs, j.write = c :: cs ∧ isSpace c = false ∧ c ≠ ']' := by
  cases j with
  | null => exact ⟨_, _, rfl, by decide⟩
  | bool b => cases b <;> exact ⟨_, _, rfl, by decide⟩
  | num n =>
    obtain ⟨c, cs, hw, hc⟩ := (h n List.mem_cons_self).begins
    have hne := hc.ne
    refine ⟨c, cs, hw, ?_, hne ']' (by decide)⟩
    simp [isSpace, hne ' ' (by decide), hne '\t' (by decide), hne '\n' (by decide),
      hne '\r' (by decide)]
  | str s => exact ⟨_, _, rfl, by decide⟩
  | arr items => cases items <;> exact ⟨_, _, rfl, by decide⟩
  | obj members => cases members <;> exact ⟨_, _, rfl, by decide⟩

/-! ## Reading back -/

variable {depth fuel : Nat} {rest : List Char}

theorem readValue_number {n : Number} (hn : n.Rereads) (hr : Delimited rest) :
    readValue depth (fuel + 1) (n.write ++ rest) = .ok (num n, rest) := by
  obtain ⟨c, cs, hw, hc⟩ := hn.begins
  have hread := hn rest hr
  have hne := hc.ne
  rw [hw, List.cons_append] at hread ⊢
  rw [readValue, hc.skipSpace]
  split <;> rename_i heq
  · exact absurd (List.cons.inj heq).1 (hne 'n' (by decide))
  · exact absurd (List.cons.inj heq).1 (hne 't' (by decide))
  · exact absurd (List.cons.inj heq).1 (hne 'f' (by decide))
  · exact absurd (List.cons.inj heq).1 (hne '"' (by decide))
  · exact absurd (List.cons.inj heq).1 (hne '[' (by decide))
  · exact absurd (List.cons.inj heq).1 (hne '\x7b' (by decide))
  · rw [hread]

theorem readValue_string (s : String) :
    readValue depth (fuel + 1) (writeString s ++ rest) = .ok (str s, rest) := by
  obtain ⟨cs, hw, hread⟩ := readString_writeString s rest
  rw [hw, readValue, skipSpace_cons (by decide)]
  simp only [hread]

theorem length_writeItems_pos (js : List Json) : 0 < (writeItems js).length := by
  cases js <;> exact Nat.succ_pos _

theorem length_writeMembers_pos (ms : List (String × Json)) : 0 < (writeMembers ms).length := by
  cases ms <;> exact Nat.succ_pos _

theorem length_write_pos {j : Json} (h : ∀ n ∈ j.numbers, n.Rereads) : 0 < j.write.length := by
  obtain ⟨c, cs, hw, -⟩ := write_begins h
  rw [hw]
  exact Nat.succ_pos _

theorem forall_rereads_cons {j : Json} {js : List Json}
    (h : ∀ n ∈ numbersItems (j :: js), n.Rereads) :
    (∀ n ∈ j.numbers, n.Rereads) ∧ ∀ n ∈ numbersItems js, n.Rereads :=
  List.forall_mem_append.mp h

theorem forall_rereads_member {name : String} {j : Json} {ms : List (String × Json)}
    (h : ∀ n ∈ numbersMembers ((name, j) :: ms), n.Rereads) :
    (∀ n ∈ j.numbers, n.Rereads) ∧ ∀ n ∈ numbersMembers ms, n.Rereads :=
  List.forall_mem_append.mp h

mutual

/-- A document is read back from the front of a text. -/
theorem readValue_write : ∀ (j : Json) (depth fuel : Nat) (rest : List Char),
    j.nesting ≤ depth → (∀ n ∈ j.numbers, n.Rereads) → j.write.length ≤ fuel → Delimited rest →
      readValue depth fuel (j.write ++ rest) = .ok (j, rest)
  | j, depth, 0, rest, _, hn, hf, _ => by
    have hpos := length_write_pos hn
    omega
  | null, depth, fuel + 1, rest, _, _, _, _ => by
    rw [readValue]
    rfl
  | bool true, depth, fuel + 1, rest, _, _, _, _ => by
    rw [readValue]
    rfl
  | bool false, depth, fuel + 1, rest, _, _, _, _ => by
    rw [readValue]
    rfl
  | num n, depth, fuel + 1, rest, _, hn, _, hr => readValue_number (hn n List.mem_cons_self) hr
  | str s, depth, fuel + 1, rest, _, _, _, _ => readValue_string s
  | arr [], 0, fuel + 1, rest, hd, _, _, _ => absurd hd (by decide)
  | arr [], depth + 1, fuel + 1, rest, _, _, _, _ => by
    rw [readValue]
    rfl
  | arr (j :: js), 0, fuel + 1, rest, hd, _, _, _ => absurd hd (Nat.not_succ_le_zero _)
  | arr (j :: js), depth + 1, fuel + 1, rest, hd, hn, hf, _ => by
    have hitems := readItems_write j js depth fuel [] rest (Nat.le_of_succ_le_succ hd) hn
      (Nat.le_of_succ_le_succ hf)
    obtain ⟨c, cs, hw, hspace, hclose⟩ := write_begins (forall_rereads_cons hn).1
    rw [write, List.cons_append, List.append_assoc, readValue, skipSpace_cons (by decide)]
    rw [hw, List.cons_append] at hitems ⊢
    simp only [skipSpace_cons hspace]
    split <;> rename_i heq
    · exact absurd (List.cons.inj heq).1 hclose
    · exact hitems
  | obj [], 0, fuel + 1, rest, hd, _, _, _ => absurd hd (by decide)
  | obj [], depth + 1, fuel + 1, rest, _, _, _, _ => by
    rw [readValue]
    rfl
  | obj (m :: ms), 0, fuel + 1, rest, hd, _, _, _ => absurd hd (Nat.not_succ_le_zero _)
  | obj ((name, j) :: ms), depth + 1, fuel + 1, rest, hd, hn, hf, _ => by
    have hlength : (j.write ++ writeMembers ms).length ≤ fuel := by
      simp only [write, List.length_cons, List.length_append] at hf ⊢
      omega
    have hmembers := readMembers_write name j ms depth fuel [] rest (Nat.le_of_succ_le_succ hd) hn
      hlength
    rw [write, List.cons_append, List.append_assoc, List.cons_append, List.append_assoc, readValue,
      skipSpace_cons (by decide)]
    exact hmembers

/-- The items of an array are read back up to its closing bracket. -/
theorem readItems_write : ∀ (j : Json) (js : List Json) (depth fuel : Nat) (acc : List Json)
    (rest : List Char), nestingItems (j :: js) ≤ depth →
      (∀ n ∈ numbersItems (j :: js), n.Rereads) → (j.write ++ writeItems js).length ≤ fuel →
        readItems depth fuel acc (j.write ++ (writeItems js ++ rest)) =
          .ok (arr (acc.reverse ++ j :: js), rest)
  | j, js, depth, 0, acc, rest, _, _, hf => by
    have hpos := length_writeItems_pos js
    rw [List.length_append] at hf
    omega
  | j, [], depth, fuel + 1, acc, rest, hd, hn, hf => by
    rw [List.length_append] at hf
    have hj := readValue_write j depth fuel (']' :: rest) (Nat.max_le.mp hd).1
      (forall_rereads_cons hn).1 (Nat.le_of_succ_le_succ hf) (.inr (.inl rfl))
    rw [writeItems, List.singleton_append, readItems, hj]
    simp [skipSpace_cons (c := ']') (by decide)]
  | j, j' :: js, depth, fuel + 1, acc, rest, hd, hn, hf => by
    rw [List.length_append, writeItems, List.length_cons] at hf
    have hpos := length_write_pos (forall_rereads_cons (forall_rereads_cons hn).2).1
    have hj := readValue_write j depth fuel (',' :: (j'.write ++ (writeItems js ++ rest)))
      (Nat.max_le.mp hd).1 (forall_rereads_cons hn).1 (by omega) (.inl rfl)
    have hjs := readItems_write j' js depth fuel (j :: acc) rest (Nat.max_le.mp hd).2
      (forall_rereads_cons hn).2 (by omega)
    rw [writeItems, List.cons_append, List.append_assoc, readItems, hj]
    simp only [skipSpace_cons (c := ',') (by decide)]
    rw [hjs, List.reverse_cons, List.append_assoc]
    rfl

/-- The members of an object are read back up to its closing brace. -/
theorem readMembers_write : ∀ (name : String) (j : Json) (ms : List (String × Json))
    (depth fuel : Nat) (acc : List (String × Json)) (rest : List Char),
      nestingMembers ((name, j) :: ms) ≤ depth →
      (∀ n ∈ numbersMembers ((name, j) :: ms), n.Rereads) →
      (j.write ++ writeMembers ms).length ≤ fuel →
        readMembers depth fuel acc
            (writeString name ++ ':' :: (j.write ++ (writeMembers ms ++ rest))) =
          .ok (obj (acc.reverse ++ (name, j) :: ms), rest)
  | name, j, ms, depth, 0, acc, rest, _, _, hf => by
    have hpos := length_writeMembers_pos ms
    rw [List.length_append] at hf
    omega
  | name, j, [], depth, fuel + 1, acc, rest, hd, hn, hf => by
    rw [List.length_append] at hf
    have hj := readValue_write j depth fuel ('\x7d' :: rest) (Nat.max_le.mp hd).1
      (forall_rereads_member hn).1 (Nat.le_of_succ_le_succ hf) (.inr (.inr rfl))
    obtain ⟨cs, hw, hname⟩ := readString_writeString name (':' :: (j.write ++ '\x7d' :: rest))
    rw [writeMembers, List.singleton_append, hw, readMembers, skipSpace_cons (by decide)]
    simp only [hname, skipSpace_cons (c := ':') (by decide), hj,
      skipSpace_cons (c := '\x7d') (by decide), List.reverse_cons]
  | name, j, (name', j') :: ms, depth, fuel + 1, acc, rest, hd, hn, hf => by
    rw [List.length_append, writeMembers, List.length_cons, List.length_append,
      List.length_cons] at hf
    have hj := readValue_write j depth fuel
      (',' :: (writeString name' ++ ':' :: (j'.write ++ (writeMembers ms ++ rest))))
      (Nat.max_le.mp hd).1 (forall_rereads_member hn).1 (by omega) (.inl rfl)
    have hms := readMembers_write name' j' ms depth fuel ((name, j) :: acc) rest
      (Nat.max_le.mp hd).2 (forall_rereads_member hn).2 (by omega)
    obtain ⟨cs, hw, hname⟩ := readString_writeString name (':' :: (j.write ++
      ',' :: (writeString name' ++ ':' :: (j'.write ++ (writeMembers ms ++ rest)))))
    rw [writeMembers, List.cons_append, List.append_assoc, List.cons_append, List.append_assoc, hw,
      readMembers, skipSpace_cons (by decide)]
    simp only [hname, skipSpace_cons (c := ':') (by decide), hj,
      skipSpace_cons (c := ',') (by decide)]
    rw [hms, List.reverse_cons, List.append_assoc]
    rfl

end

/-- **Round trip.** A document that is not nested too deeply is read back if its numbers are. -/
theorem readDocument?_write {j : Json} (hd : j.nesting ≤ maxDepth)
    (hn : ∀ n ∈ j.numbers, n.Rereads) : readDocument? j.write = some j := by
  have hread := readValue_write j maxDepth (j.write.length + 1) [] hd hn (by omega) trivial
  rw [List.append_nil] at hread
  rw [readDocument?, hread]
  rfl

end DiagnosticBroker.Json
