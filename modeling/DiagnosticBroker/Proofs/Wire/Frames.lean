import DiagnosticBroker.Proofs.Text.Utf8
import DiagnosticBroker.Proofs.Text.Numerals
import DiagnosticBroker.Proofs.Wire.Messages
import DiagnosticBroker.Wire.Frame
import Mathlib

/-!
# Messages that were framed are read again

The header of a frame gives the length of its text in bytes, so the next frame is found whatever the
text holds. What was read is framed with its values in their canonical form, and read again as it was.

Results:
* `next_ofText`: the text of a frame is found, and what follows it is left.
* `next_append`: what is read does not depend on what arrives later.
* `next_ofMessage`: a message that was framed is read without its nulls.
* `next_of_prefix`: in whatever pieces framed messages arrive, nothing else is read.
* `read_framed`: a stream of framed messages is read message by message up to its end, and what was
  read is read again as it was.
-/

namespace DiagnosticBroker

/-! ## Trimming -/

namespace Text

theorem not_isBlank_of_isDigit {c : Char} (h : c.isDigit = true) : isBlank c = false := by
  simp only [Char.isDigit, Bool.and_eq_true, decide_eq_true_eq] at h
  have hrange : 48 ≤ c.toNat ∧ c.toNat ≤ 57 := h
  simp only [isBlank, Bool.or_eq_false_iff, Bool.and_eq_false_iff, decide_eq_false_iff_not]
  omega

theorem dropWhile_isBlank {before cs : List Char} (hb : before.all isBlank = true)
    (hc : ∀ c ∈ cs.head?, isBlank c = false) : (before ++ cs).dropWhile isBlank = cs := by
  rw [List.dropWhile_append_of_pos (List.all_eq_true.mp hb)]
  cases cs with
  | nil => rfl
  | cons c cs => rw [List.dropWhile_cons_of_neg (by simp [hc c rfl])]

/-- What stands between blanks and does not begin or end with one. -/
theorem trim_eq {before cs after : List Char} (hb : before.all isBlank = true)
    (ha : after.all isBlank = true) (hne : cs ≠ []) (hfirst : ∀ c ∈ cs.head?, isBlank c = false)
    (hlast : ∀ c ∈ cs.getLast?, isBlank c = false) : trim (before ++ (cs ++ after)) = cs := by
  have hhead : ∀ c ∈ (cs ++ after).head?, isBlank c = false := by
    rw [List.head?_append_of_ne_nil _ hne]
    exact hfirst
  rw [trim, dropWhile_isBlank hb hhead, List.reverse_append]
  rw [dropWhile_isBlank (by rwa [List.all_reverse]) (by rwa [List.head?_reverse])]
  exact List.reverse_reverse cs

end Text

namespace Wire.Frame

variable {closed : Bool} {more rest : List UInt8}

/-! ## Header lines -/

/-- The header line with a length, up to its line feed. -/
def lengthLine (n : Nat) : List Char :=
  lengthHeader.toList ++ [' '] ++ Nat.toDigits 10 n ++ ['\r']

theorem feed_not_mem_lengthLine (n : Nat) : '\n' ∉ lengthLine n := by
  have hdigits : '\n' ∉ Nat.toDigits 10 n := fun h =>
    absurd (isDigit_of_mem_decimal h) (by decide)
  rw [lengthLine, List.mem_append, List.mem_append, not_or, not_or]
  exact ⟨⟨by decide, hdigits⟩, by decide⟩

/-- A frame is the line with the length of its text, an empty line and the bytes of the text. -/
theorem ofText_eq (text : String) :
    ofText text = Utf8.encode (lengthLine text.utf8ByteSize) ++
      10 :: (Utf8.encode ['\r'] ++ 10 :: Utf8.encode text.toList) := by
  have hheader : s!"{lengthHeader} {text.utf8ByteSize}\r\n\r\n".toList =
      lengthLine text.utf8ByteSize ++ ('\n' :: (['\r'] ++ ['\n'])) := by
    simp [lengthLine, ToString.toString, Nat.toList_repr]
  have hfeeds : Utf8.encode ('\n' :: (['\r'] ++ ['\n'])) = 10 :: (Utf8.encode ['\r'] ++ [10]) := rfl
  simp only [ofText, Utf8.toList_toUTF8, Utf8.length_encode]
  rw [hheader, Utf8.encode_append, hfeeds, List.append_assoc, List.cons_append, List.append_assoc]
  rfl

/-- The header with a number is trimmed to its last digit. -/
theorem trim_numbered {ds after : List Char} (hne : ds ≠ []) (hd : ∀ c ∈ ds, c.isDigit = true)
    (ha : after.all Text.isBlank = true) :
    Text.trim (lengthHeader.toList ++ [' '] ++ ds ++ after) = lengthHeader.toList ++ [' '] ++ ds := by
  have hparts : lengthHeader.toList ++ [' '] ++ ds ++ after =
      [] ++ ((lengthHeader.toList ++ [' '] ++ ds) ++ after) := rfl
  rw [hparts]
  refine Text.trim_eq rfl ha (by simp) (fun c hc => ?_) fun c hc => ?_
  · rw [List.append_assoc, List.head?_append_of_ne_nil _ (by decide)] at hc
    obtain rfl : 'C' = c := Option.some.inj hc
    decide
  · rw [List.getLast?_append_of_ne_nil _ hne] at hc
    exact Text.not_isBlank_of_isDigit (hd c (List.mem_of_mem_getLast? hc))

theorem trim_digits {ds : List Char} (hne : ds ≠ []) (hd : ∀ c ∈ ds, c.isDigit = true) :
    Text.trim ([' '] ++ ds) = ds := by
  have hparts : [' '] ++ ds = [' '] ++ (ds ++ []) := by rw [List.append_nil]
  rw [hparts]
  exact Text.trim_eq (by decide) rfl hne
    (fun c hc => Text.not_isBlank_of_isDigit (hd c (List.mem_of_mem_head? hc)))
    fun c hc => Text.not_isBlank_of_isDigit (hd c (List.mem_of_mem_getLast? hc))

/-- The header with a number is read as the number, whatever blanks follow. -/
theorem readHeader_numbered {ds after : List Char} {n : Nat} (hne : ds ≠ [])
    (hd : ∀ c ∈ ds, c.isDigit = true) (ha : after.all Text.isBlank = true)
    (hread : Numeral.read Word.maxU64 ds = .ok n) :
    readHeader (Utf8.encode (lengthHeader.toList ++ [' '] ++ ds ++ after)) = .contentLength n := by
  have hname : lengthHeader.toList.isPrefixOf (lengthHeader.toList ++ ([' '] ++ ds)) = true :=
    List.isPrefixOf_iff_prefix.mpr (List.prefix_append _ _)
  have hvalue : (lengthHeader.toList ++ ([' '] ++ ds)).drop lengthHeader.length = [' '] ++ ds :=
    List.drop_left' String.length_toList
  rw [readHeader, Utf8.decode_encode]
  simp only [trim_numbered hne hd ha]
  simp only [List.append_assoc, hname, hvalue, trim_digits hne hd, hread]
  rfl

/-- The header line with a length is read as the length. -/
theorem readHeader_lengthLine {n : Nat} (h : n ≤ Word.maxU64) :
    readHeader (Utf8.encode (lengthLine n) ++ [10]) = .contentLength n := by
  have hbytes : Utf8.encode (lengthLine n) ++ [10] =
      Utf8.encode (lengthHeader.toList ++ [' '] ++ Nat.toDigits 10 n ++ ['\r', '\n']) :=
    calc Utf8.encode (lengthLine n) ++ [10]
      _ = Utf8.encode (lengthLine n ++ ['\n']) :=
        (Utf8.encode_concat (c := '\n') _ (by decide)).symm
      _ = _ := by simp [lengthLine]
  rw [hbytes]
  exact readHeader_numbered Nat.toDigits_ne_nil (fun c hc => isDigit_of_mem_decimal hc) (by decide)
    (Numeral.read_toDigits h)

theorem readHeader_blank : readHeader (Utf8.encode ['\r'] ++ [10]) = .blank := by
  have hbytes : Utf8.encode ['\r'] ++ [10] = Utf8.encode ['\r', '\n'] := rfl
  rw [hbytes, readHeader, Utf8.decode_encode]
  rfl

/-! ## Frames -/

theorem splitLine_of_feed {front : List UInt8} (hf : 10 ∉ front) (rest : List UInt8) :
    splitLine (front ++ 10 :: rest) = (front ++ [10], rest) := by
  rw [splitLine, Utf8.span_feed hf]

section

variable {cs : List Char} {length? : Option Nat} {fuel n : Nat} {text : String}

/-- A header line whose line feed has arrived is read, whatever follows. -/
theorem readFrom_line {front : List UInt8} (hf : 10 ∉ front) :
    readFrom closed length? (fuel + 1) (front ++ 10 :: rest) =
      match readHeader (front ++ [10]) with
      | .fault f => .fault f
      | .other => readFrom closed length? fuel rest
      | .contentLength n => readFrom closed (some n) fuel rest
      | .blank =>
        match length? with
        | none => .fault (.invalidData "Missing Content-Length")
        | some n =>
          if maxLength < n then .fault (.invalidData s!"Content-Length {n} exceeds limit")
          else readBody closed n rest := by
  have hlast : (!closed && decide ((front ++ [10]).getLast? ≠ some 10)) = false := by simp
  have hline : (front ++ [10]).isEmpty = false := by simp
  rw [readFrom, splitLine_of_feed hf]
  exact (if_neg (by rw [hlast]; exact Bool.false_ne_true)).trans
    (if_neg (by rw [hline]; exact Bool.false_ne_true))

theorem readBody_encode {m : Message} (h : Message.parse text.toList = .ok m) :
    readBody closed text.utf8ByteSize (Utf8.encode text.toList ++ more) = .message m more := by
  have hlen := Utf8.length_encode text
  simp only [readBody, List.splitAt_eq, List.take_left' hlen, List.drop_left' hlen,
    Utf8.decodeArray_encode, h, hlen, Nat.lt_irrefl, if_false]

/-- **One frame.** The text of a frame is read as a message, and what follows the frame is left. -/
theorem next_ofText {m : Message} (hsize : text.utf8ByteSize ≤ maxLength)
    (h : Message.parse text.toList = .ok m) :
    next closed (ofText text ++ more) = .message m more := by
  have hsmall : text.utf8ByteSize ≤ Word.maxU64 := Nat.le_trans hsize (by decide)
  have hparts : ofText text ++ more = Utf8.encode (lengthLine text.utf8ByteSize) ++
      10 :: (Utf8.encode ['\r'] ++ 10 :: (Utf8.encode text.toList ++ more)) := by
    simp [ofText_eq]
  have hfuel : ∃ k, (ofText text ++ more).length = k + 1 := by
    refine ⟨_, (Nat.succ_pred_eq_of_pos ?_).symm⟩
    rw [hparts]
    simp
  obtain ⟨k, hk⟩ := hfuel
  rw [next, hk, hparts, readFrom_line (Utf8.feed_not_mem_encode (feed_not_mem_lengthLine _)),
    readHeader_lengthLine hsmall]
  simp only
  rw [readFrom_line (Utf8.feed_not_mem_encode (by decide)), readHeader_blank]
  simp only [if_neg (Nat.not_lt.mpr hsize)]
  exact readBody_encode h

theorem parsed_of_readBody {bytes : List UInt8} {m : Message}
    (h : readBody closed n bytes = .message m rest) : ∃ cs, Message.parse cs = .ok m := by
  unfold readBody at h
  dsimp only at h
  split_ifs at h
  split at h
  · cases h
  · split at h
    · rename_i hparse
      cases h
      exact ⟨_, hparse⟩
    · cases h
    · cases h

/-- A message that was read is what the text of a frame says. -/
theorem parsed_of_readFrom {bytes : List UInt8} {m : Message}
    (h : readFrom closed length? fuel bytes = .message m rest) :
    ∃ cs, Message.parse cs = .ok m := by
  induction fuel generalizing length? bytes with
  | zero => cases h
  | succ fuel ih =>
    rw [readFrom] at h
    dsimp only at h
    split_ifs at h
    split at h
    · cases h
    · exact ih h
    · exact ih h
    · split at h
      · cases h
      · split_ifs at h
        exact parsed_of_readBody h

/-! ## Pieces -/

/-- What the front of a stream holds, with more bytes behind it. -/
def Step.append : Step → List UInt8 → Step
  | .message m rest, more => .message m (rest ++ more)
  | s, _ => s

variable {bytes : List UInt8}

theorem readBody_append (h : readBody false n bytes ≠ .needMore) :
    readBody closed n (bytes ++ more) = (readBody false n bytes).append more := by
  have hlen : n ≤ bytes.length := by
    by_contra hshort
    refine h ?_
    simp only [readBody, List.splitAt_eq, List.length_take, Bool.false_eq_true, if_false]
    rw [if_pos (by omega)]
  have htake : (bytes.take n).length = n := List.length_take_of_le hlen
  simp only [readBody, List.splitAt_eq, List.take_append_of_le_length hlen,
    List.drop_append_of_le_length hlen, htake, Nat.lt_irrefl, if_false]
  cases Utf8.decodeArray ⟨(bytes.take n).toArray⟩ with
  | error e => rfl
  | ok text =>
    simp only
    split <;> rfl

theorem readFrom_append {fuel' : Nat} (hfuel : bytes.length < fuel)
    (hfuel' : (bytes ++ more).length < fuel') (h : readFrom false length? fuel bytes ≠ .needMore) :
    readFrom closed length? fuel' (bytes ++ more) =
      (readFrom false length? fuel bytes).append more := by
  induction fuel generalizing bytes length? fuel' with
  | zero => exact absurd hfuel (Nat.not_lt_zero _)
  | succ fuel ih =>
    obtain ⟨k, rfl⟩ := Nat.exists_eq_succ_of_ne_zero (Nat.ne_of_gt (Nat.zero_lt_of_lt hfuel'))
    rcases Utf8.split_at_feed bytes with hnone | ⟨front, rest, rfl, hfront⟩
    · refine absurd ?_ h
      have hlast : bytes.getLast? ≠ some 10 := fun hlast => hnone (List.mem_of_getLast? hlast)
      rw [readFrom, splitLine, Utf8.span_of_not_mem hnone]
      simp [hlast]
    · have hless : rest.length < fuel := by
        simp only [List.length_append, List.length_cons] at hfuel
        omega
      have hless' : (rest ++ more).length < k := by
        simp only [List.length_append, List.length_cons] at hfuel' ⊢
        omega
      rw [readFrom_line hfront] at h ⊢
      rw [List.append_assoc, List.cons_append, readFrom_line hfront]
      cases hheader : readHeader (front ++ [10]) with
      | fault f => rfl
      | other =>
        simp only [hheader] at h
        exact ih hless hless' h
      | contentLength n =>
        simp only [hheader] at h
        exact ih hless hless' h
      | blank =>
        cases length? with
        | none => rfl
        | some n =>
          simp only [hheader] at h ⊢
          split_ifs at h ⊢ with hlong
          · rfl
          · exact readBody_append h

/-- **Pieces.** What is read of the bytes that have arrived is read of any that go on from them. -/
theorem next_append (h : next false bytes ≠ .needMore) :
    next closed (bytes ++ more) = (next false bytes).append more :=
  readFrom_append (Nat.lt_succ_self _) (Nat.lt_succ_self _) h

end

/-! ## Messages -/

/-- The doubles of a message are read back from their numerals. -/
def DoublesReread (m : Message) : Prop :=
  ∀ x, .float x ∈ m.encode.numbers → (Json.Number.float x).Rereads

/-- A message that can be framed: its text is no longer and nested no deeper than allowed, and its
doubles are read back. -/
structure Framable (m : Message) : Prop where
  wellFormed : m.WellFormed
  size : m.encode.text.utf8ByteSize ≤ maxLength
  nesting : NestedWithin Json.maxDepth m.encode
  doubles : DoublesReread m

theorem parse_encode {m : Message} (h : Framable m) :
    Message.parse m.encode.text.toList = .ok m.withoutNulls := by
  have hnumbers := numbers_encode h.wellFormed
  have hrereads : ∀ n ∈ m.encode.numbers, n.Rereads := fun n hn =>
    (hnumbers n hn).rereads fun x hx => hx ▸ h.doubles x (hx ▸ hn)
  have hread : Json.read? m.encode.text.toList = some m.encode.canonical := by
    rw [Json.text, String.toList_ofList]
    exact Json.read?_write h.nesting hrereads (Json.inRange_of_numbers hnumbers)
  rw [Message.parse, hread]
  simp only [decode_encode h.wellFormed]
  rfl

/-- **One message.** A message that was framed is read without its nulls, whatever follows. -/
theorem next_ofMessage {m : Message} (h : Framable m) :
    next closed (ofMessage m ++ more) = .message m.withoutNulls more :=
  next_ofText h.size (parse_encode h)

/-- A message that was read is one that can be framed and has no nulls, if it is small enough. -/
theorem framable_of_next {bytes : List UInt8} {m : Message} (h : next closed bytes = .message m rest)
    (hsize : m.encode.text.utf8ByteSize ≤ maxLength) (hdoubles : DoublesReread m) :
    Framable m ∧ m.withoutNulls = m := by
  obtain ⟨cs, hparse⟩ := parsed_of_readFrom h
  unfold Message.parse at hparse
  split at hparse
  · cases hparse
  · rename_i j hread
    have hdecode : Message.decode j = .ok m := by
      cases hd : Message.decode j with
      | error e =>
        rw [hd] at hparse
        cases hparse
      | ok m' =>
        rw [hd] at hparse
        cases hparse
        rfl
    obtain ⟨hm, hnulls, hnest⟩ := wellFormed_of_decode (Json.sound_of_read? hread).1 hdecode
    exact ⟨⟨hm, hsize, hnest, hdoubles⟩, hnulls⟩

/-! ## Streams -/

/-- However much of a stream of framed messages has arrived, either nothing is read of it yet, or the
first message is, and what is left is the beginning of the others. -/
theorem next_of_prefix {ms : List Message} (h : ∀ m ∈ ms, Framable m) {bytes : List UInt8}
    (hp : bytes <+: ms.flatMap ofMessage) :
    next false bytes = .needMore ∨ ∃ m others rest, ms = m :: others ∧
      next false bytes = .message m.withoutNulls rest ∧ rest <+: others.flatMap ofMessage := by
  by_cases hmore : next false bytes = .needMore
  · exact .inl hmore
  obtain ⟨more, hall⟩ := hp
  have happend : next false (bytes ++ more) = _ := next_append hmore
  cases ms with
  | nil =>
    rw [(List.append_eq_nil_iff.mp hall).1] at hmore
    exact absurd rfl hmore
  | cons m others =>
    rw [hall, List.flatMap_cons, next_ofMessage (h m List.mem_cons_self)] at happend
    cases hread : next false bytes with
    | needMore => exact absurd hread hmore
    | fault f =>
      rw [hread] at happend
      cases happend
    | message m' rest =>
      rw [hread] at happend
      obtain ⟨hm, hrest⟩ := Step.message.inj happend
      exact .inr ⟨m, others, rest, rfl, by rw [hm], more, hrest.symm⟩

theorem readAllFrom_framed {ms : List Message} (h : ∀ m ∈ ms, Framable m) {fuel : Nat}
    (hfuel : ms.length < fuel) :
    readAllFrom fuel (ms.flatMap ofMessage) = (ms.map Message.withoutNulls, closedFault) := by
  induction ms generalizing fuel with
  | nil =>
    obtain ⟨k, rfl⟩ := Nat.exists_eq_succ_of_ne_zero (Nat.ne_of_gt hfuel)
    rfl
  | cons m ms ih =>
    obtain ⟨k, rfl⟩ := Nat.exists_eq_succ_of_ne_zero (Nat.ne_of_gt (Nat.zero_lt_of_lt hfuel))
    have hrest := ih (fun m hm => h m (List.mem_cons_of_mem _ hm)) (Nat.lt_of_succ_lt_succ hfuel)
    rw [readAllFrom, List.flatMap_cons, next_ofMessage (h m List.mem_cons_self)]
    simp only [hrest, List.map_cons]

theorem length_le_framed (ms : List Message) : ms.length ≤ (ms.flatMap ofMessage).length := by
  induction ms with
  | nil => exact Nat.le_refl 0
  | cons m ms ih =>
    have hpos : 0 < (ofMessage m).length := by
      rw [ofMessage, ofJson, ofText_eq]
      simp
    simp only [List.flatMap_cons, List.length_append, List.length_cons]
    omega

/-- **Streams of messages.** Framed messages are read one after the other, without their nulls, up to
the end of the stream; and what was read is read again as it was when it is framed. -/
theorem read_framed :
    (∀ ms : List Message, (∀ m ∈ ms, Framable m) →
      readAll (ms.flatMap ofMessage) = (ms.map Message.withoutNulls, closedFault)) ∧
    ∀ (closed closed' : Bool) (bytes rest more : List UInt8) (m : Message),
      next closed bytes = .message m rest → m.encode.text.utf8ByteSize ≤ maxLength →
      DoublesReread m → next closed' (ofMessage m ++ more) = .message m more := by
  constructor
  · intro ms h
    exact readAllFrom_framed h (Nat.lt_succ_of_le (length_le_framed ms))
  · intro closed closed' bytes rest more m hread hsize hdoubles
    obtain ⟨hm, hnulls⟩ := framable_of_next hread hsize hdoubles
    rw [next_ofMessage hm, hnulls]

/-- One half. -/
def half : Binary64 := .finite false 4503599627370496 (-53)

theorem half_rereads : (Json.Number.float half).Rereads := by
  intro rest hr
  have hwrite : (Json.Number.float half).write = ['0', '.', '5'] := by decide +kernel
  have hvalue : Json.scaled false 5 (-1) = .float half := by decide +kernel
  rw [hwrite]
  cases rest with
  | nil => rw [← hvalue]; rfl
  | cons c rest => rcases hr with rfl | rfl | rfl <;> rw [← hvalue] <;> rfl

/-- A request with a text that has characters of several bytes, and a double. -/
def asking : Message := .request ⟨version, .text "größe", "läuft", some (.obj
  [("größe", .num (.float half)), ("語", .arr [.null, .str "日本", .int (-3)])])⟩

/-- A notification with a null. -/
def telling : Message := .notification ⟨version, "initialized", some .null⟩

/-- An answer to a request without an id, with a null in its error. -/
def refusing : Message := .response ⟨version, none, none, some ⟨-32601, "no", some .null⟩⟩

theorem isValue_null : Json.null.IsValue := ⟨rfl, List.forall_mem_nil _⟩

theorem framable_asking : Framable asking where
  wellFormed := {
    id := by rintro i ⟨⟩; trivial
    code := nofun
    values := by
      intro j hj
      obtain rfl := List.mem_singleton.mp hj
      refine ⟨rfl, fun n hn => ?_⟩
      rcases List.mem_cons.mp hn with rfl | hn
      · rfl
      · obtain rfl := List.mem_singleton.mp hn
        exact ⟨by decide, by decide⟩ }
  size := by decide +kernel
  nesting := by decide
  doubles := by
    intro x hx
    rcases List.mem_cons.mp hx with hx | hx
    · obtain rfl := Json.Number.float.inj hx
      exact half_rereads
    · cases List.mem_singleton.mp hx

theorem framable_telling : Framable telling where
  wellFormed := {
    id := nofun
    code := nofun
    values := by
      intro j hj
      obtain rfl := List.mem_singleton.mp hj
      exact isValue_null }
  size := by decide +kernel
  nesting := by decide
  doubles := nofun

theorem framable_refusing : Framable refusing where
  wellFormed := {
    id := nofun
    code := by rintro e ⟨⟩; decide
    values := by
      intro j hj
      obtain rfl := List.mem_singleton.mp hj
      exact isValue_null }
  size := by decide +kernel
  nesting := by decide
  doubles := by
    intro x hx
    cases List.mem_singleton.mp hx

/-- The text of a request whose members are in another order, with one that is not known. -/
def told : String :=
  "\x7b\"id\":1,\"more\":true,\"method\":\"m\",\"params\":\x7b\"b\":1,\"a\":[]\x7d,\"jsonrpc\":\"2.0\"\x7d"

theorem parse_told : Message.parse told.toList =
    .ok (.request ⟨version, .number 1, "m", some (.obj [("a", .arr []), ("b", .int 1)])⟩) := by
  cbv

theorem read_framed_mixed :
    readAll ([asking, telling, refusing].flatMap ofMessage) =
      ([asking, .notification ⟨version, "initialized", none⟩,
        .response ⟨version, none, none, some ⟨-32601, "no", none⟩⟩], closedFault) ∧
    (let m : Message :=
      .request ⟨version, .number 1, "m", some (.obj [("a", .arr []), ("b", .int 1)])⟩
    next true (ofText told ++ []) = .message m [] ∧
      next false (ofMessage m ++ [67, 111]) = .message m [67, 111]) := by
  refine ⟨read_framed.1 [asking, telling, refusing] ?_, ?_⟩
  · simp only [List.forall_mem_cons]
    exact ⟨framable_asking, framable_telling, framable_refusing, List.forall_mem_nil _⟩
  · have hread : next true (ofText told ++ []) = .message _ [] :=
      next_ofText (by decide +kernel) parse_told
    refine ⟨hread, read_framed.2 true false _ _ _ _ hread (by decide +kernel) fun x hx => ?_⟩
    rcases List.mem_cons.mp hx with hx | hx
    · cases hx
    · cases List.mem_singleton.mp hx

end Wire.Frame

end DiagnosticBroker
