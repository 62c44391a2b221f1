import DiagnosticBroker.Proofs.Text.Utf8
import DiagnosticBroker.Tool.Line

/-!
# The lines of an input

The server takes one line after the other, as their bytes arrive. The lines of a whole input are those
that are taken if all of it has arrived. In whatever pieces the bytes come, the lines that were taken
and those of the bytes that are left are the lines of the whole.

If the input is text, its lines end at the line feeds, and a carriage return before a line feed belongs
to the line end.

Results:
* `next_append`: what is read does not depend on what arrives later.
* `linesOf_of_line`, `linesOf_of_end`: the lines of an input, one by one.
* `linesOf_encode`: the lines of text.
-/

namespace DiagnosticBroker.Tool

variable {bytes more rest : List UInt8} {line : String}

/-! ## Taking a line -/

/-- If a line feed has arrived, the line before it is read, whatever follows. -/
theorem Incoming.next_of_feed {front : List UInt8} (hf : 10 ∉ front) (closed : Bool)
    (rest : List UInt8) :
    Incoming.next closed (front ++ 10 :: rest) = Incoming.next.text (front ++ [10]) rest := by
  rw [Incoming.next, Utf8.span_feed hf]
  cases front <;> rfl

/-- Without a line feed, there is a line only at the end of the input. -/
theorem Incoming.next_of_none (hf : 10 ∉ bytes) (closed : Bool) :
    Incoming.next closed bytes =
      if closed then (if bytes = [] then .ended else Incoming.next.text bytes []) else .waiting := by
  rw [Incoming.next, Utf8.span_of_not_mem hf]
  cases bytes <;> cases closed <;> rfl

theorem Incoming.text_cases (front rest : List UInt8) :
    (∃ line, Incoming.next.text front rest = .line line rest) ∨
      Incoming.next.text front rest = .unreadable := by
  unfold Incoming.next.text
  cases Utf8.decode (chompLine front) with
  | ok cs => exact .inl ⟨_, rfl⟩
  | error e => exact .inr rfl

/-- What the front of an input holds, with more bytes behind it. -/
def Incoming.append : Incoming → List UInt8 → Incoming
  | .line line rest, more => .line line (rest ++ more)
  | i, _ => i

/-- What is read of the bytes that have arrived is read of the whole input. If no more bytes will
arrive, none do. -/
theorem Incoming.next_append {closed : Bool} (h : Incoming.next closed bytes ≠ .waiting)
    (hm : closed = true → more = []) :
    Incoming.next true (bytes ++ more) = (Incoming.next closed bytes).append more := by
  rcases Utf8.split_at_feed bytes with hnone | ⟨front, rest, rfl, hf⟩
  · cases closed with
    | false =>
      rw [Incoming.next_of_none hnone] at h
      exact absurd rfl h
    | true =>
      rw [hm rfl, List.append_nil]
      cases Incoming.next true bytes <;> simp [Incoming.append]
  · rw [List.append_assoc, List.cons_append, Incoming.next_of_feed hf, Incoming.next_of_feed hf]
    unfold Incoming.next.text
    cases Utf8.decode (chompLine (front ++ [10])) <;> rfl

/-- At the end of an input nothing more is waited for. -/
theorem Incoming.next_true_ne (bytes : List UInt8) : Incoming.next true bytes ≠ .waiting := by
  have htext : ∀ front rest, Incoming.next.text front rest ≠ .waiting := by
    intro front rest h
    rcases Incoming.text_cases front rest with ⟨line, hl⟩ | hu
    · cases hl.symm.trans h
    · cases hu.symm.trans h
  rcases Utf8.split_at_feed bytes with hnone | ⟨front, rest, rfl, hf⟩
  · rw [Incoming.next_of_none hnone, if_pos rfl]
    split_ifs
    · nofun
    · exact htext _ _
  · rw [Incoming.next_of_feed hf]
    exact htext _ _

theorem Incoming.length_lt {closed : Bool} (h : Incoming.next closed bytes = .line line rest) :
    rest.length < bytes.length := by
  have htext : ∀ {front rest'}, Incoming.next.text front rest' = .line line rest → rest' = rest := by
    intro front rest' h
    rcases Incoming.text_cases front rest' with ⟨line', hl⟩ | hu
    · rw [hl] at h
      cases h
      rfl
    · rw [hu] at h
      cases h
  rcases Utf8.split_at_feed bytes with hnone | ⟨front, rest', rfl, hf⟩
  · rw [Incoming.next_of_none hnone] at h
    cases closed with
    | false => cases h
    | true =>
      by_cases hb : bytes = []
      · rw [if_pos rfl, if_pos hb] at h
        cases h
      · rw [if_pos rfl, if_neg hb] at h
        rw [← htext h]
        exact List.length_pos_iff.mpr hb
  · rw [Incoming.next_of_feed hf] at h
    rw [← htext h]
    simp only [List.length_append, List.length_cons]
    omega

/-! ## The lines of an input -/

/-- The lines that are taken of an input, up to one that is not text. -/
def linesOf (bytes : List UInt8) : List String :=
  match h : Incoming.next true bytes with
  | .line line rest =>
    have := Incoming.length_lt h
    line :: linesOf rest
  | _ => []
termination_by bytes.length

theorem linesOf_of_line (h : Incoming.next true bytes = .line line rest) :
    linesOf bytes = line :: linesOf rest := by
  rw [linesOf]
  split
  · rename_i h'
    rw [h] at h'
    cases h'
    rfl
  · rename_i hnone
    exact absurd h (hnone line rest)

theorem linesOf_of_end (h : ∀ line rest, Incoming.next true bytes ≠ .line line rest) :
    linesOf bytes = [] := by
  rw [linesOf]
  split
  · exact absurd ‹_› (h _ _)
  · rfl

/-! ## The lines of text -/

/-- A line without the carriage return at its end. -/
def chompReturn (cs : List Char) : List Char :=
  if cs.getLast? = some '\r' then cs.dropLast else cs

/-- The lines of a text: what stands between the line feeds, and what follows the last one unless this
is nothing. -/
def textLines (cs : List Char) : List String :=
  let pieces := cs.splitOn '\n'
  let last := pieces.getLastD []
  (pieces.dropLast.map fun piece => String.ofList (chompReturn piece)) ++
    if last = [] then [] else [String.ofList last]

theorem textLines_of_not_mem {cs : List Char} (h : '\n' ∉ cs) :
    textLines cs = if cs = [] then [] else [String.ofList cs] := by
  simp only [textLines, List.splitOn_eq_singleton h]
  rfl

theorem textLines_append {front : List Char} (h : '\n' ∉ front) (rest : List Char) :
    textLines (front ++ '\n' :: rest) = String.ofList (chompReturn front) :: textLines rest := by
  have hne : rest.splitOn '\n' ≠ [] := List.splitOn_ne_nil '\n' rest
  obtain ⟨pieces, last, hpieces⟩ : ∃ pieces last, rest.splitOn '\n' = pieces ++ [last] :=
    ⟨_, _, (List.dropLast_concat_getLast hne).symm⟩
  simp only [textLines, List.splitOn_append_cons_self_of_not_mem h, hpieces]
  rw [← List.cons_append, List.dropLast_concat, List.dropLast_concat, List.getLastD_concat,
    List.getLastD_concat]
  rfl

/-! ## Text as bytes -/

/-- What reading makes of the bytes of a line that ends with a line feed. -/
theorem chompLine_encode (cs : List Char) :
    chompLine (Utf8.encode cs ++ [10]) = Utf8.encode (chompReturn cs) := by
  have hfeed : (Utf8.encode cs ++ [10]).reverse = 10 :: (Utf8.encode cs).reverse := by simp
  unfold chompReturn
  split_ifs with hlast
  · obtain ⟨front, rfl⟩ := List.getLast?_eq_some_iff.mp hlast
    have hreturn : Utf8.encode (front ++ ['\r']) = Utf8.encode front ++ [13] :=
      Utf8.encode_concat front (by decide)
    simp only [chompLine, hreturn, List.reverse_append, List.reverse_cons, List.reverse_nil,
      List.nil_append, List.cons_append, List.dropLast_concat, List.reverse_reverse]
  · have hnot : ∀ rest, (Utf8.encode cs).reverse ≠ 13 :: rest := by
      intro rest hr
      have hend : Utf8.encode cs = rest.reverse ++ [13] := by
        rw [← List.reverse_reverse (Utf8.encode cs), hr, List.reverse_cons]
      rcases List.eq_nil_or_concat cs with rfl | ⟨front, c, hcs⟩
      · simp [Utf8.encode] at hend
      · rw [List.concat_eq_append] at hcs
        subst hcs
        rw [List.getLast?_concat] at hlast
        rw [Utf8.encode_append] at hend
        have hmem : 13 ∈ String.utf8EncodeChar c := by
          have hsingle : Utf8.encode [c] = String.utf8EncodeChar c := List.append_nil _
          have hsplit := List.dropLast_concat_getLast (String.utf8EncodeChar_ne_nil (c := c))
          rw [hsingle, ← hsplit, ← List.append_assoc] at hend
          have hbyte := List.singleton_inj.mp (List.append_inj_right' hend rfl)
          exact hbyte ▸ List.getLast_mem _
        have hc : c.toNat = 13 := Utf8.toNat_of_mem_encodeChar hmem (by decide)
        rw [← Char.ofNat_toNat c, hc] at hlast
        exact hlast rfl
    simp only [chompLine, hfeed]
    exact List.reverse_reverse _

/-- What reading makes of the bytes of a line without a line end. -/
theorem chompLine_of_not_mem (h : 10 ∉ bytes) : chompLine bytes = bytes := by
  unfold chompLine
  split
  · rename_i heq
    exact absurd (List.mem_reverse.mp (heq ▸ List.mem_cons_self)) h
  · rename_i heq
    exact absurd (List.mem_reverse.mp (heq ▸ List.mem_cons_self)) h
  · rfl

theorem text_of_encode {front : List UInt8} {cs : List Char}
    (h : chompLine front = Utf8.encode cs) (rest : List UInt8) :
    Incoming.next.text front rest = .line (String.ofList cs) rest := by
  rw [Incoming.next.text, h, Utf8.decode_encode]

/-- **Lines of text.** The lines that are taken of the bytes of a text are those of the text. -/
theorem linesOf_encode (cs : List Char) : linesOf (Utf8.encode cs) = textLines cs := by
  by_cases h : '\n' ∈ cs
  · obtain ⟨front, rest, rfl, hf⟩ := List.eq_append_cons_of_mem h
    have hbytes : Utf8.encode (front ++ '\n' :: rest) =
        Utf8.encode front ++ 10 :: Utf8.encode rest := Utf8.encode_append front ('\n' :: rest)
    have hnext : Incoming.next true (Utf8.encode front ++ 10 :: Utf8.encode rest) =
        .line (String.ofList (chompReturn front)) (Utf8.encode rest) := by
      rw [Incoming.next_of_feed (Utf8.feed_not_mem_encode hf)]
      exact text_of_encode (chompLine_encode front) _
    rw [hbytes, linesOf_of_line hnext, textLines_append hf, linesOf_encode rest]
  · have hfeed := Utf8.feed_not_mem_encode h
    rw [textLines_of_not_mem h]
    split_ifs with hnil
    · subst hnil
      refine linesOf_of_end fun line rest hl => ?_
      rw [Incoming.next_of_none hfeed] at hl
      cases hl
    · have hnext : Incoming.next true (Utf8.encode cs) = .line (String.ofList cs) [] := by
        rw [Incoming.next_of_none hfeed, if_pos rfl, if_neg (mt Utf8.encode_eq_nil.mp hnil)]
        exact text_of_encode (chompLine_of_not_mem hfeed) _
      have hend : linesOf [] = [] := linesOf_of_end fun line rest hl => by cases hl
      rw [linesOf_of_line hnext, hend]
termination_by cs.length
decreasing_by
  subst_vars
  simp only [List.length_append, List.length_cons]
  omega

end DiagnosticBroker.Tool
