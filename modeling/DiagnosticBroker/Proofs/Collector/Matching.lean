import DiagnosticBroker.Proofs.Collector.Desk
import DiagnosticBroker.Proofs.Text.Escapes

/-!
# Whom a publish reaches

A waiter is registered under the address that this program writes for a path. A backend names the
document by an address of its own, which may escape other characters or with other digits. Whatever
the address, a publish does what it would do under the address of this program: it reaches those who
wait for the document, unless they wait for a later version of it.

Results:
* `publish_congr`: a publish depends on the address that its own is normalized to.
* `matched_of_escapes`: whom a publish reaches that names an escaped path.
-/

namespace DiagnosticBroker

/-- A publish depends on the address only by what it is normalized to. -/
theorem Collector.publish_congr {c : Collector} {p : Wire.Publish} {uri : String}
    (h : Uri.normalize c.directory p.uri = Uri.normalize c.directory uri) (now : Time) :
    c.publish now p = c.publish now { p with uri := uri } := by
  unfold publish
  rw [h]

/-- What a publish does to somebody who waits for its document: if it is about an older version,
nothing, and else it is what is seen from now on. -/
theorem Collector.publish_of_subscribed {c : Collector} {p : Wire.Publish} {w : Waiter}
    {sub : Subscription} (hs : c.subscriptions.lookup (c.subject p) = some sub)
    (hid : sub.id = w.subscription) (hlt : sub.id < c.channels.length) (now : Time) :
    if sub.isStale p.version then c.publish now p = c
    else ((c.publish now p).channelOf w).snapshot = .published p.diagnostics ∧
      ((c.publish now p).channelOf w).revision = (c.channelOf w).revision + 1 := by
  rcases publish_cases c now p with ⟨sub', hs', ⟨hstale, heq⟩ | ⟨hfresh, heq⟩⟩ | ⟨hnone, -⟩
  · cases hs.symm.trans hs'
    rw [if_pos hstale, heq]
  · cases hs.symm.trans hs'
    rw [if_neg (by rw [hfresh]; exact Bool.false_ne_true), heq, channelOf_send hlt,
      if_pos hid.symm]
    exact ⟨rfl, rfl⟩
  · rw [hs] at hnone
    cases hnone

namespace Desk

variable {s : Desk}

/-- **Whom a publish reaches.** However a backend escapes the path of a document in its address, the
path is read back, and the address is written again as the one that this program writes. A publish
under such an address does what it would do under that one: it reaches everybody who has registered
for the document since the backend came, unless it is about an older version. No other path has that
address. -/
theorem matched_of_escapes (hs : Reachable s) {path u : String} (hp : path.startsWith "/" = true)
    (hu : Uri.Escapes path.toList u.toList) {p : Wire.Publish} (hpu : p.uri = Uri.scheme ++ u) :
    Uri.toPath p.uri = path ∧
    Uri.normalize s.collector.directory p.uri = Uri.ofPath s.collector.directory path ∧
    s.act (.publish p) =
      s.act (.publish { p with uri := Uri.ofPath s.collector.directory path }) ∧
    (∀ h ∈ s.handles, h.waiter.uri = Uri.ofPath s.collector.directory path → h.since = s.losses →
      ∃ sub, s.collector.subscriptions.lookup h.waiter.uri = some sub ∧
        sub.id = h.waiter.subscription ∧
        if sub.isStale p.version then s.collector.publish s.now p = s.collector
        else ((s.collector.publish s.now p).channelOf h.waiter).snapshot =
            .published p.diagnostics ∧
          ((s.collector.publish s.now p).channelOf h.waiter).revision =
            (s.collector.channelOf h.waiter).revision + 1) ∧
    ∀ other : String, other.startsWith "/" = true →
      Uri.ofPath s.collector.directory other = Uri.ofPath s.collector.directory path →
      other = path := by
  have hb := balanced_of_reachable hs
  have hnormal : Uri.normalize s.collector.directory p.uri =
      Uri.ofPath s.collector.directory path := by
    rw [hpu, Uri.normalize_of_escapes hu]
  refine ⟨by rw [hpu, Uri.toPath_of_escapes hu], hnormal, ?_, fun h hh huri hsince => ?_,
    fun other hother heq => ?_⟩
  · rw [act, act, Collector.publish_congr (hnormal.trans (Uri.normalize_ofPath hp).symm)]
  · obtain ⟨sub, hsub, hid⟩ := hb.awaits_of_since hh hsince
    have hsubject : s.collector.subject p = h.waiter.uri := hnormal.trans huri.symm
    exact ⟨sub, hsub, hid, Collector.publish_of_subscribed (hsubject.symm ▸ hsub) hid
      (hb.accounts.lt hsub) s.now⟩
  · have habsolute := Uri.ofPath_eq_iff.mp heq
    rwa [Uri.absolute_of_startsWith hother, Uri.absolute_of_startsWith hp] at habsolute

/-- A waiter for one document. -/
def expecting : Desk :=
  ((new (.ofMillis 500) "/").run [.register (Uri.ofPath "/" "/c++/é.ts") 1 true]).getD
    (new .zero "/")

/-- A publish whose address escapes one of two plus signs, and with small letters, reaches the waiter
of the document. -/
theorem matched_of_escapes_plus :
    Uri.ofPath "/" "/c++/é.ts" = "file:///c%2B%2B/%C3%A9.ts" ∧
      ((expecting.collector.publish expecting.now
        ⟨"file:///c%2b+/%C3%a9.ts", some 1, []⟩).channelOf ⟨"file:///c%2B%2B/%C3%A9.ts", 1, 0⟩).snapshot =
          .published [] := by
  have hreach : Reachable expecting := by
    have hrun : (new (.ofMillis 500) "/").run
        [.register (Uri.ofPath "/" "/c++/é.ts") 1 true] = some expecting := by rfl
    exact (Reachable.new _ _).of_run hrun
  have hplus : Uri.EscapesBytes (String.utf8EncodeChar '+') ['%', '2', 'b'] :=
    .cons (.inl rfl) (.inl rfl) .nil
  have haccent : Uri.EscapesBytes (String.utf8EncodeChar 'é') ['%', 'C', '3', '%', 'a', '9'] :=
    .cons (.inr rfl) (.inl rfl) (.cons (.inl rfl) (.inl rfl) .nil)
  have hescapes : Uri.Escapes "/c++/é.ts".toList "/c%2b+/%C3%a9.ts".toList :=
    .plain (by decide) <| .plain (by decide) <| .escaped hplus <| .plain (by decide) <|
      .plain (by decide) <| .escaped haccent <| .plain (by decide) <| .plain (by decide) <|
        .plain (by decide) .nil
  have haddress : Uri.ofPath "/" "/c++/é.ts" = "file:///c%2B%2B/%C3%A9.ts" := by decide +kernel
  have hmatched := matched_of_escapes hreach (by decide +kernel) hescapes
    (p := ⟨"file:///c%2b+/%C3%a9.ts", some 1, []⟩) rfl
  obtain ⟨-, -, -, hreached, -⟩ := hmatched
  obtain ⟨sub, hsub, -, hpublished⟩ :=
    hreached ⟨⟨"file:///c%2B%2B/%C3%A9.ts", 1, 0⟩, 0, none⟩
      (List.mem_singleton.mpr (by rw [← haddress]; rfl)) haddress.symm rfl
  have hfirst : expecting.collector.subscriptions.lookup "file:///c%2B%2B/%C3%A9.ts" =
      some ⟨0, 1, 1⟩ := by decide +kernel
  cases hsub.symm.trans hfirst
  exact ⟨haddress, hpublished.1⟩

end Desk

end DiagnosticBroker
