import DiagnosticBroker.Proofs.Wire.Frames

/-!
# Streams that end inside a frame

A stream of framed messages may end anywhere. The messages whose frames are whole are read, and then
the end is met: as the end of the stream, wherever the last frame is cut off, but for one place. A
header line that ends before the first digit of its number is read as a line with an empty number,
and reported as malformed.

Results:
* `next_cut`: what is reported when all that has come of a frame is a front of it.
* `isInvalidData_cutFault`: in which fronts the end is taken for malformed data.
* `readAll_cut`: the front of a stream of framed messages is read message by message as far as its
  frames are whole, and then the end is reported.
-/

namespace DiagnosticBroker

/-! ## Fronts -/

theorem front_of_append {α : Type} {front xs ys : List α} (h : front <+: xs ++ ys) :
    front <+: xs ∨ ∃ zs, zs <+: ys ∧ front = xs ++ zs := by
  rcases List.prefix_or_prefix_of_prefix h (List.prefix_append xs ys) with hx | ⟨zs, rfl⟩
  · exact .inl hx
  · exact .inr ⟨zs, (List.prefix_append_right_inj xs).mp h, rfl⟩

namespace Utf8

theorem encode_cons {c : Char} (h : c.toNat < 128) (cs : List Char) :
    encode (c :: cs) = UInt8.ofNat c.toNat :: encode cs := by
  rw [encode, List.flatMap_cons, encodeChar_of_lt h]
  rfl

/-- A front of the bytes of a text in ASCII is the bytes of a front of the text. -/
theorem front_of_encode {cs : List Char} (hc : ∀ c ∈ cs, c.toNat < 128) {front : List UInt8}
    (h : front <+: encode cs) : ∃ ds, ds <+: cs ∧ front = encode ds := by
  induction cs generalizing front with
  | nil => exact ⟨[], List.prefix_rfl, List.prefix_nil.mp h⟩
  | cons c cs ih =>
    have hfirst : c.toNat < 128 := hc c List.mem_cons_self
    rw [encode_cons hfirst] at h
    rcases List.prefix_cons_iff.mp h with rfl | ⟨bytes, rfl, hp⟩
    · exact ⟨[], List.nil_prefix, rfl⟩
    · obtain ⟨ds, hds, rfl⟩ := ih (fun c hc' => hc c (List.mem_cons_of_mem _ hc')) hp
      exact ⟨c :: ds, List.cons_prefix_cons.mpr ⟨rfl, hds⟩, (encode_cons hfirst ds).symm⟩

theorem encode_injective : Function.Injective encode :=
  Function.LeftInverse.injective lossy_encode

end Utf8

namespace Wire.Frame

/-! ## The end of a stream -/

/-- The front of a frame that ends between the name of its header and the first digit. -/
def Numberless (front : List UInt8) : Prop :=
  front = Utf8.encode lengthHeader.toList ∨ front = Utf8.encode (lengthHeader.toList ++ [' '])

instance : DecidablePred Numberless := fun _ => inferInstanceAs (Decidable (_ ∨ _))

/-- What is reported when a stream ends with a front of a frame: within the first header line, behind
it, or just before its number. -/
def cutFault (front : List UInt8) : IoFault :=
  if Numberless front then .invalidData Numeral.Refusal.empty.message
  else if (splitLine front).2 = [] then closedFault
  else .unexpectedEnd "early eof"

/-- **Where the end is malformed.** The end of a stream inside a frame is taken for malformed data if
and only if the frame ends before the first digit of its header, and else for the end that it is. -/
theorem isInvalidData_cutFault (front : List UInt8) :
    ((cutFault front).isInvalidData = true ↔ Numberless front) ∧
      (¬Numberless front → ∃ text, cutFault front = .unexpectedEnd text) := by
  unfold cutFault
  split_ifs with hn hline
  · exact ⟨iff_of_true rfl hn, fun h => absurd hn h⟩
  · exact ⟨iff_of_false Bool.false_ne_true hn, fun _ => ⟨_, rfl⟩⟩
  · exact ⟨iff_of_false Bool.false_ne_true hn, fun _ => ⟨_, rfl⟩⟩

section

variable {length? : Option Nat} {fuel n : Nat} {front : List UInt8}

/-- A line that the stream ends in is read as it stands. -/
theorem readFrom_lastLine (hf : 10 ∉ front) (hne : front ≠ []) :
    readFrom true length? (fuel + 2) front =
      match readHeader front with
      | .fault f => .fault f
      | .other => .fault closedFault
      | .contentLength _ => .fault closedFault
      | .blank =>
        match length? with
        | none => .fault (.invalidData "Missing Content-Length")
        | some n =>
          if maxLength < n then .fault (.invalidData s!"Content-Length {n} exceeds limit")
          else readBody true n [] := by
  have hline : front.isEmpty = false := by simp [hne]
  rw [readFrom, splitLine, Utf8.span_of_not_mem hf]
  exact (if_neg (by simp)).trans (if_neg (by rw [hline]; exact Bool.false_ne_true))

theorem readBody_short {bytes : List UInt8} (h : bytes.length < n) :
    readBody true n bytes = .fault (.unexpectedEnd "early eof") := by
  have hshort : (bytes.take n).length < n := Nat.lt_of_le_of_lt (List.length_take_le' n bytes) h
  simp only [readBody, List.splitAt_eq, hshort, if_true]

/-! ## Fronts of the header line -/

theorem ascii_lengthLine (n : Nat) : ∀ c ∈ lengthLine n, c.toNat < 128 := by
  intro c hc
  have hparts := hc
  simp only [lengthLine, List.mem_append] at hparts
  rcases hparts with ((hname | hblank) | hdigit) | hreturn
  · have hname' : ∀ c ∈ lengthHeader.toList, c.toNat < 128 := by simp [lengthHeader]
    exact hname' c hname
  · obtain rfl := List.mem_singleton.mp hblank
    decide
  · have hd := isDigit_of_mem_decimal hdigit
    simp only [Char.isDigit, Bool.and_eq_true, decide_eq_true_eq] at hd
    have hrange : 48 ≤ c.toNat ∧ c.toNat ≤ 57 := hd
    omega
  · obtain rfl := List.mem_singleton.mp hreturn
    decide

variable {ds : List Char}

theorem numberless_encode_iff :
    Numberless (Utf8.encode ds) ↔ ds = lengthHeader.toList ∨ ds = lengthHeader.toList ++ [' '] := by
  rw [Numberless, Utf8.encode_injective.eq_iff, Utf8.encode_injective.eq_iff]

/-- A part of the name of the header is no header that is known. -/
theorem readHeader_name (hp : ds <+: lengthHeader.toList) (hne : ds ≠ [])
    (hshort : ds ≠ lengthHeader.toList) : readHeader (Utf8.encode ds) = .other := by
  have hplain : ∀ c ∈ lengthHeader.toList, Text.isBlank c = false := by
    simp [lengthHeader, Text.isBlank]
  have htrim : Text.trim ds = ds := by
    have hparts : ds = [] ++ (ds ++ []) := by simp
    rw [hparts]
    refine (Text.trim_eq rfl rfl hne (fun c hc => ?_) fun c hc => ?_).trans hparts
    · exact hplain c (hp.subset (List.mem_of_mem_head? hc))
    · exact hplain c (hp.subset (List.mem_of_mem_getLast? hc))
  have hname : lengthHeader.toList.isPrefixOf ds = false := by
    rw [Bool.eq_false_iff, Ne, List.isPrefixOf_iff_prefix]
    exact fun h => hshort (hp.eq_of_length (Nat.le_antisymm hp.length_le h.length_le))
  have hsome : ds.isEmpty = false := by simp [hne]
  rw [readHeader, Utf8.decode_encode]
  simp [htrim, hname, hsome]

theorem readHeader_numberless (h : Numberless front) :
    readHeader front = .fault (.invalidData Numeral.Refusal.empty.message) := by
  rcases h with rfl | rfl <;> rw [readHeader, Utf8.decode_encode] <;> rfl

/-- The first digits of a numeral in range are a numeral in range. -/
theorem exists_read_front (hn : n ≤ Word.maxU64) (hp : ds <+: Nat.toDigits 10 n) (hne : ds ≠ []) :
    ∃ m, Numeral.read Word.maxU64 ds = .ok m := by
  obtain ⟨more, hmore⟩ := hp
  have hd : ∀ c ∈ ds, c.isDigit = true := fun c hc =>
    isDigit_of_mem_decimal (hmore ▸ List.mem_append_left more hc)
  have hvalue : Nat.ofDigitChars 10 ds 0 ≤ n :=
    calc Nat.ofDigitChars 10 ds 0
      _ ≤ Nat.ofDigitChars 10 more (Nat.ofDigitChars 10 ds 0) := le_ofDigitChars more _
      _ = Nat.ofDigitChars 10 (Nat.toDigits 10 n) 0 := by rw [← hmore, Nat.ofDigitChars_append]
      _ = n := Nat.ofDigitChars_ten_toDigits
  exact ⟨_, by rw [Numeral.read_digits hne hd,
    Numeral.readDigits_eq_ok 0 hd (Nat.le_trans hvalue hn)]⟩

/-- The header with some digits of its number is read as a number. -/
theorem readHeader_digits (hn : n ≤ Word.maxU64) (hp : ds <+: Nat.toDigits 10 n ++ ['\r'])
    (hne : ds ≠ []) :
    ∃ m, readHeader (Utf8.encode (lengthHeader.toList ++ [' '] ++ ds)) = .contentLength m := by
  have hread : ∀ digits after, digits <+: Nat.toDigits 10 n → digits ≠ [] →
      after.all Text.isBlank = true → ∃ m, readHeader
        (Utf8.encode (lengthHeader.toList ++ [' '] ++ digits ++ after)) = .contentLength m := by
    intro digits after hdigits hsome ha
    obtain ⟨m, hm⟩ := exists_read_front hn hdigits hsome
    exact ⟨m, readHeader_numbered hsome
      (fun c hc => isDigit_of_mem_decimal (hdigits.subset hc)) ha hm⟩
  rcases front_of_append hp with hdigits | ⟨after, hafter, rfl⟩
  · have hall := hread ds [] hdigits hne rfl
    rwa [List.append_nil] at hall
  · have hblank : after.all Text.isBlank = true := List.all_eq_true.mpr fun c hc => by
      obtain rfl := List.mem_singleton.mp (hafter.subset hc)
      decide
    have hall := hread _ after List.prefix_rfl Nat.toDigits_ne_nil hblank
    rwa [List.append_assoc] at hall

/-- The front of a header line is read as a header, unless its number is missing. -/
theorem readHeader_front (hn : n ≤ Word.maxU64) (hp : ds <+: lengthLine n) (hne : ds ≠ [])
    (hnumber : ¬Numberless (Utf8.encode ds)) :
    readHeader (Utf8.encode ds) = .other ∨
      ∃ m, readHeader (Utf8.encode ds) = .contentLength m := by
  rw [numberless_encode_iff, not_or] at hnumber
  have hparts : lengthLine n =
      lengthHeader.toList ++ ([' '] ++ (Nat.toDigits 10 n ++ ['\r'])) := by simp [lengthLine]
  rw [hparts] at hp
  rcases front_of_append hp with hname | ⟨cs, hcs, rfl⟩
  · exact .inl (readHeader_name hname hne hnumber.1)
  rcases front_of_append hcs with hblank | ⟨digits, hdigits, rfl⟩
  · rcases List.prefix_cons_iff.mp hblank with rfl | ⟨rest, rfl, hrest⟩
    · exact absurd (List.append_nil _) hnumber.1
    · rw [List.prefix_nil.mp hrest] at hnumber
      exact absurd rfl hnumber.2
  · have hsome : digits ≠ [] := by
      rintro rfl
      exact hnumber.2 rfl
    rw [← List.append_assoc]
    exact .inr (readHeader_digits hn hdigits hsome)

/-! ## Fronts of frames -/

theorem not_numberless_feed {bytes rest : List UInt8} : ¬Numberless (bytes ++ 10 :: rest) := by
  rintro (h | h)
  · exact Utf8.feed_not_mem_encode (by decide) (h ▸ List.mem_append_right _ List.mem_cons_self)
  · exact Utf8.feed_not_mem_encode (by decide) (h ▸ List.mem_append_right _ List.mem_cons_self)

/-- The stream ends within the header line. -/
theorem next_cut_header (hn : n ≤ Word.maxU64) (hp : front <+: Utf8.encode (lengthLine n)) :
    next true front = .fault (cutFault front) := by
  obtain ⟨ds, hds, rfl⟩ := Utf8.front_of_encode (ascii_lengthLine n) hp
  by_cases hne : ds = []
  · subst hne
    rfl
  have hbytes : Utf8.encode ds ≠ [] := fun h => hne (Utf8.encode_eq_nil.mp h)
  have hfeed : 10 ∉ Utf8.encode ds :=
    Utf8.feed_not_mem_encode fun h => feed_not_mem_lengthLine n (hds.subset h)
  obtain ⟨fuel, hfuel⟩ := Nat.exists_eq_succ_of_ne_zero (List.length_pos_of_ne_nil hbytes).ne'
  have hline : (splitLine (Utf8.encode ds)).2 = [] := by
    rw [splitLine, Utf8.span_of_not_mem hfeed]
  rw [next, hfuel, readFrom_lastLine hfeed hbytes]
  by_cases hnumber : Numberless (Utf8.encode ds)
  · rw [readHeader_numberless hnumber, cutFault, if_pos hnumber]
  · rw [cutFault, if_neg hnumber, if_pos hline]
    rcases readHeader_front hn hds hne hnumber with h | ⟨m, h⟩ <;> rw [h]

theorem readHeader_return : readHeader [13] = .blank := by
  have hbytes : [13] = Utf8.encode ['\r'] := rfl
  rw [hbytes, readHeader, Utf8.decode_encode]
  rfl

/-- The stream ends behind the header line, within the empty line or the text. -/
theorem readFrom_cut_body {bytes text : List UInt8} (hfuel : bytes.length < fuel)
    (hp : bytes <+: 13 :: 10 :: text) (hne : bytes ≠ 13 :: 10 :: text) (htext : 0 < text.length)
    (hsize : text.length ≤ maxLength) :
    readFrom true (some text.length) fuel bytes =
      .fault (if bytes = [] then closedFault else .unexpectedEnd "early eof") := by
  have hlimit : ¬maxLength < text.length := Nat.not_lt.mpr hsize
  obtain ⟨more, rfl⟩ := Nat.exists_eq_add_of_lt hfuel
  rcases List.prefix_cons_iff.mp hp with rfl | ⟨rest, rfl, hrest⟩
  · rfl
  rw [if_neg (List.cons_ne_nil _ _)]
  rcases List.prefix_cons_iff.mp hrest with rfl | ⟨body, rfl, hbody⟩
  · have hsteps : [(13 : UInt8)].length + more + 1 = more + 2 := by
      rw [List.length_singleton]
      omega
    rw [hsteps, readFrom_lastLine (by decide) (by decide), readHeader_return]
    simp only [hlimit, if_false]
    exact readBody_short htext
  · have hshort : body.length < text.length := by
      refine lt_of_le_of_ne hbody.length_le fun h => hne ?_
      rw [hbody.eq_of_length h]
    have hline : readHeader ([13] ++ [10]) = .blank := readHeader_blank
    rw [← List.singleton_append, readFrom_line (by decide), hline]
    simp only [hlimit, if_false]
    exact readBody_short hshort

/-- **A cut frame.** When all that has come of a frame is a front of it, the end of the stream is
reported. -/
theorem next_cut {text : String} (htext : 0 < text.utf8ByteSize)
    (hsize : text.utf8ByteSize ≤ maxLength) (hp : front <+: ofText text)
    (hne : front ≠ ofText text) : next true front = .fault (cutFault front) := by
  have hn : text.utf8ByteSize ≤ Word.maxU64 := Nat.le_trans hsize (by decide)
  have hlen := Utf8.length_encode text
  rw [ofText_eq] at hp hne
  rcases front_of_append hp with hline | ⟨more, hmore, rfl⟩
  · exact next_cut_header hn hline
  rcases List.prefix_cons_iff.mp hmore with rfl | ⟨rest, rfl, hrest⟩
  · rw [List.append_nil] at hp ⊢
    exact next_cut_header hn List.prefix_rfl
  have hfeed : 10 ∉ Utf8.encode (lengthLine text.utf8ByteSize) :=
    Utf8.feed_not_mem_encode (feed_not_mem_lengthLine _)
  have hcut : rest ≠ 13 :: 10 :: Utf8.encode text.toList := by
    rintro rfl
    exact hne rfl
  rw [next, cutFault, if_neg not_numberless_feed, splitLine_of_feed hfeed, readFrom_line hfeed,
    readHeader_lengthLine hn, ← hlen]
  refine readFrom_cut_body ?_ hrest hcut (hlen ▸ htext) (hlen ▸ hsize)
  simp
  omega

end

/-! ## Streams -/

/-- What the frame of a message says: its text is no longer than allowed and is read as a message. -/
structure Conveys (m m' : Message) : Prop where
  size : m.encode.text.utf8ByteSize ≤ maxLength
  parse : Message.parse m.encode.text.toList = .ok m'

variable {m m' : Message} {ms told : List Message} {whole fuel : Nat} {front bytes : List UInt8}

theorem conveys_withoutNulls (h : Framable m) : Conveys m m.withoutNulls := ⟨h.size, parse_encode h⟩

theorem Conveys.text_pos (h : Conveys m m') : 0 < m.encode.text.utf8ByteSize := by
  refine Nat.pos_of_ne_zero fun hzero => ?_
  have hparse := h.parse
  rw [String.utf8ByteSize_eq_zero_iff.mp hzero] at hparse
  cases hparse

/-- The bytes are a front of the frames of the messages: so many frames are whole in it, and no more,
and a front of the next frame follows. -/
structure CutAfter (ms : List Message) (whole : Nat) (front bytes : List UInt8) : Prop where
  whole_le : whole ≤ ms.length
  bytes_eq : bytes = (ms.take whole).flatMap ofMessage ++ front
  most : ∀ k ≤ ms.length, (ms.take k).flatMap ofMessage <+: bytes → k ≤ whole

theorem CutAfter.unique {whole' : Nat} {front' : List UInt8} (h : CutAfter ms whole front bytes)
    (h' : CutAfter ms whole' front' bytes) : whole = whole' ∧ front = front' := by
  have hwhole : whole = whole' := Nat.le_antisymm
    (h'.most whole h.whole_le (h.bytes_eq ▸ List.prefix_append _ _))
    (h.most whole' h'.whole_le (h'.bytes_eq ▸ List.prefix_append _ _))
  subst hwhole
  exact ⟨rfl, List.append_cancel_left (h.bytes_eq.symm.trans h'.bytes_eq)⟩

theorem cutAfter_nil : CutAfter [] 0 [] [] := ⟨Nat.le_refl 0, rfl, fun _ hk _ => hk⟩

/-- The first frame is cut. -/
theorem cutAfter_within (hp : front <+: ofMessage m) (hne : front ≠ ofMessage m) :
    CutAfter (m :: ms) 0 front front := by
  refine ⟨Nat.zero_le _, rfl, fun k _ hwhole => ?_⟩
  cases k with
  | zero => exact Nat.le_refl 0
  | succ k =>
    rw [List.take_succ_cons, List.flatMap_cons] at hwhole
    have hfirst : ofMessage m <+: front := (List.prefix_append _ _).trans hwhole
    exact absurd (hp.eq_of_length (Nat.le_antisymm hp.length_le hfirst.length_le)) hne

/-- The first frame is whole. -/
theorem CutAfter.behind (h : CutAfter ms whole front bytes) :
    CutAfter (m :: ms) (whole + 1) front (ofMessage m ++ bytes) where
  whole_le := Nat.succ_le_succ h.whole_le
  bytes_eq := by
    rw [List.take_succ_cons, List.flatMap_cons, List.append_assoc]
    exact congrArg _ h.bytes_eq
  most := by
    intro k hk hwhole
    cases k with
    | zero => exact Nat.zero_le _
    | succ k =>
      rw [List.take_succ_cons, List.flatMap_cons, List.prefix_append_right_inj] at hwhole
      exact Nat.succ_le_succ (h.most k (Nat.le_of_succ_le_succ hk) hwhole)

theorem readAllFrom_cut (h : List.Forall₂ Conveys ms told) (hp : bytes <+: ms.flatMap ofMessage)
    (hfuel : bytes.length < fuel) : ∃ whole front, CutAfter ms whole front bytes ∧
      readAllFrom fuel bytes = (told.take whole, cutFault front) := by
  induction h generalizing bytes fuel with
  | nil =>
    obtain ⟨k, rfl⟩ := Nat.exists_eq_succ_of_ne_zero (Nat.ne_of_gt (Nat.zero_lt_of_lt hfuel))
    obtain rfl := List.prefix_nil.mp hp
    exact ⟨0, [], cutAfter_nil, rfl⟩
  | @cons m m' ms told hm h ih =>
    obtain ⟨k, rfl⟩ := Nat.exists_eq_succ_of_ne_zero (Nat.ne_of_gt (Nat.zero_lt_of_lt hfuel))
    rw [List.flatMap_cons] at hp
    by_cases hwhole : ofMessage m <+: bytes
    · obtain ⟨rest, rfl⟩ := hwhole
      have hpos : 1 ≤ (ofMessage m).length := by simpa using length_le_framed [m]
      have hless : rest.length < k := by
        rw [List.length_append] at hfuel
        omega
      obtain ⟨whole, front, hcut, hread⟩ := ih ((List.prefix_append_right_inj _).mp hp) hless
      refine ⟨whole + 1, front, hcut.behind, ?_⟩
      rw [readAllFrom, ofMessage, ofJson, next_ofText hm.size hm.parse]
      simp only [hread, List.take_succ_cons]
    · rcases front_of_append hp with hfront | ⟨rest, -, rfl⟩
      · have hne : bytes ≠ ofMessage m := fun h => hwhole (h ▸ List.prefix_rfl)
        refine ⟨0, bytes, cutAfter_within hfront hne, ?_⟩
        rw [readAllFrom, next_cut hm.text_pos hm.size hfront hne]
        rfl
      · exact absurd (List.prefix_append _ _) hwhole

/-- **Streams that are cut off.** Of any front of a stream of framed messages, the messages whose
frames are whole in it are read. Then the end is reported: as the end of the stream, unless what has
come of the next frame ends between the name of its header and the first digit of its number, and as
malformed data there. A message that can be framed is read without its nulls. -/
theorem readAll_cut {ms told : List Message} {bytes : List UInt8}
    (hp : bytes <+: ms.flatMap ofMessage) :
    (∀ m, Framable m → Conveys m m.withoutNulls) ∧
      (List.Forall₂ Conveys ms told → ∃ whole front, CutAfter ms whole front bytes ∧
        readAll bytes = (told.take whole, cutFault front) ∧
        ((cutFault front).isInvalidData = true ↔ Numberless front) ∧
        (¬Numberless front → ∃ text, cutFault front = .unexpectedEnd text)) := by
  refine ⟨fun m => conveys_withoutNulls, fun h => ?_⟩
  obtain ⟨whole, front, hcut, hread⟩ := readAllFrom_cut h hp (Nat.lt_succ_self _)
  exact ⟨whole, front, hcut, hread, isInvalidData_cutFault front⟩

/-- A stream of two frames that ends just before the number of the second. -/
def numberlessEnd : List UInt8 := ofMessage asking ++ Utf8.encode (lengthHeader.toList ++ [' '])

theorem readAll_cut_number :
    numberlessEnd <+: [asking, telling].flatMap ofMessage ∧
      readAll numberlessEnd = ([asking], .invalidData "cannot parse integer from empty string") := by
  have hfront : Utf8.encode (lengthHeader.toList ++ [' ']) <+: ofMessage telling := by
    decide +kernel
  have hcut : CutAfter [asking, telling] 1 (Utf8.encode (lengthHeader.toList ++ [' ']))
      numberlessEnd := (cutAfter_within hfront (by decide +kernel)).behind
  have hp : numberlessEnd <+: [asking, telling].flatMap ofMessage := by
    rw [List.flatMap_cons, List.flatMap_singleton, numberlessEnd, List.prefix_append_right_inj]
    exact hfront
  obtain ⟨hconveys, hread⟩ :=
    @readAll_cut _ [asking.withoutNulls, telling.withoutNulls] _ hp
  obtain ⟨whole, front, hany, hread, -, -⟩ := hread
    (.cons (hconveys _ framable_asking) (.cons (hconveys _ framable_telling) .nil))
  obtain ⟨rfl, rfl⟩ := hany.unique hcut
  exact ⟨hp, hread⟩

end Wire.Frame

end DiagnosticBroker
