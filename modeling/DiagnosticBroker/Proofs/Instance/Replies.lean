import DiagnosticBroker.Proofs.Instance.Posts

/-!
# What a backend asks is answered

A backend may ask the client, too, and some stall until they are answered. While frames can be
queued, every request that the reader takes in is answered at once, and nothing else that the reader
does queues anything. So along any run the responses that are queued are the answers to the requests
that were taken in, one for each and in order.

Results:
* `answers_answerTo`: what the answer to a request is.
* `replies_of_act`: which event queues which response.
* `replies_of_run`: the responses of a run.
-/

namespace DiagnosticBroker

open Instance (Exchange Shutdown Start)

/-! ## Answers -/

/-- The response that a frame carries. -/
def Wire.Message.response? : Wire.Message → Option Wire.Response
  | .response r => some r
  | _ => none

namespace Instance

/-- The responses that were queued, in order. -/
def replies (i : Instance) : List Wire.Response := i.queued.filterMap Wire.Message.response?

/-- How many items the parameters of a request list; none if they list no items at all. -/
inductive AsksFor : Option Json → Nat → Prop where
  | items {params : Json} {items : List Json} (h : params.get? "items" = some (.arr items)) :
      AsksFor (some params) items.length
  | nothing {params : Option Json}
      (h : ∀ p items, params = some p → p.get? "items" ≠ some (.arr items)) : AsksFor params 0

/-- A folder that stands for a root: it has the address of the root, and its name if it has one. -/
structure StandsFor (directory root : String) (folder : Json) : Prop where
  uri : folder.get? "uri" = some (.str (Uri.ofPath directory root))
  name : folder.get? "name" = some ((Path.fileName? root).elim .null .str)

/-- The response answers the request, by its id and with what its method asks for. -/
inductive Answers (i : Instance) (r : Wire.Request) : Wire.Response → Prop where
  /-- One empty settings object for each item. -/
  | settings {n : Nat} (hm : r.method = "workspace/configuration") (hn : AsksFor r.params n) :
      Answers i r (.success r.id (.arr (.replicate n (.obj []))))
  | folders {folders : List Json} (hm : r.method = "workspace/workspaceFolders")
      (hf : List.Forall₂ (StandsFor i.collector.directory) i.roots folders) :
      Answers i r (.success r.id (.arr folders))
  | granted (hm : r.method = "client/registerCapability" ∨
      r.method = "client/unregisterCapability" ∨ r.method = "window/workDoneProgress/create") :
      Answers i r (.success r.id .null)
  | unknown {message : String}
      (hm : r.method ∉ ["workspace/configuration", "workspace/workspaceFolders",
        "client/registerCapability", "client/unregisterCapability",
        "window/workDoneProgress/create"]) :
      Answers i r (.failure (some r.id) ⟨-32601, message, none⟩)

variable {i j : Instance} {r : Wire.Request}

theorem settingsFor_of_asksFor {params : Option Json} {n : Nat} (h : AsksFor params n) :
    settingsFor params = .arr (.replicate n (.obj [])) := by
  cases h with
  | items h => simp [settingsFor, h, Json.items?]
  | nothing h =>
    have hnone : (params.bind (Json.get? "items")).bind Json.items? = none := by
      cases params with
      | none => rfl
      | some p =>
        cases hi : p.get? "items" with
        | none => simp [hi]
        | some j =>
          cases j with
          | arr items => exact absurd hi (h p items rfl)
          | null | bool | num | str | obj => simp [hi, Json.items?]
    simp [settingsFor, hnone]

theorem exists_asksFor (params : Option Json) : ∃ n, AsksFor params n := by
  by_cases h : ∃ p items, params = some p ∧ p.get? "items" = some (.arr items)
  · obtain ⟨p, items, rfl, hi⟩ := h
    exact ⟨_, .items hi⟩
  · exact ⟨0, .nothing fun p items hp hi => h ⟨p, items, hp, hi⟩⟩

theorem standsFor_folders (i : Instance) : ∃ folders, i.foldersAnswer = .arr folders ∧
    List.Forall₂ (StandsFor i.collector.directory) i.roots folders := by
  refine ⟨_, rfl, List.forall₂_map_right_iff.mpr (List.forall₂_same.mpr fun root _ => ⟨rfl, ?_⟩)⟩
  cases Path.fileName? root <;> simp [Json.get?]

/-- **Answers.** The answer to a request is one. -/
theorem answers_answerTo (i : Instance) (r : Wire.Request) : Answers i r (i.answerTo r) := by
  unfold answerTo
  split_ifs with hc hf hg
  · obtain ⟨n, hn⟩ := exists_asksFor r.params
    rw [settingsFor_of_asksFor hn]
    exact .settings hc hn
  · obtain ⟨folders, heq, hall⟩ := standsFor_folders i
    rw [heq]
    exact .folders hf hall
  · exact .granted (by simpa [acknowledged] using hg)
  · exact .unknown (by simpa [acknowledged, hc, hf] using hg)

/-- Answers are the same while the places stay that the client tells of. -/
theorem Answers.congr {w : Wire.Response} (h : Answers i r w) (hr : j.roots = i.roots)
    (hd : j.collector.directory = i.collector.directory) : Answers j r w := by
  cases h with
  | settings hm hn => exact .settings hm hn
  | folders hm hf => exact .folders hm (hr ▸ hd ▸ hf)
  | granted hm => exact .granted hm
  | unknown hm => exact .unknown hm

/-! ## What queues responses -/

theorem Sends.replies {ms : List Wire.Message} (h : i.Sends ms j) :
    j.replies = i.replies ++ ms.filterMap Wire.Message.response? := by
  rw [Instance.replies, h.queued, List.filterMap_append]
  rfl

theorem Exchange.Posts.noResponse {x : Exchange} {ms : List Wire.Message} (h : x.Posts i ms) :
    ms.filterMap Wire.Message.response? = [] := by
  cases h <;> rfl

theorem Shutdown.Posts.noResponse {now : Time} {x : Shutdown} {ms : List Wire.Message}
    (h : x.Posts now i ms) : ms.filterMap Wire.Message.response? = [] := by
  cases h with
  | asks hx => exact hx.noResponse
  | nothing | exits => rfl

theorem Start.Posts.noResponse {x : Start} {ms : List Wire.Message} (h : x.Posts i ms) :
    ms.filterMap Wire.Message.response? = [] := by
  cases h with
  | asks _ hx => exact hx.noResponse
  | nothing | greets => rfl

theorem response?_announcement (uri languageId text : String) (version : Int) (isOpen : Bool) :
    (announcement uri languageId text version isOpen).response? = none := by
  unfold announcement
  split_ifs <;> rfl

end Instance

/-! ## Runs -/

namespace Scene

variable {P : Scene → Event → Prop} {s s' : Scene} {e : Event}

/-- The request that an event has the reader take in, if frames can be queued. -/
def question? (s : Scene) : Event → Option Wire.Request
  | .receive (.request r) => if s.client.canSend then some r else none
  | _ => none

/-- The requests that the reader takes in along a run, while frames can be queued. -/
def questions (s : Scene) : List Event → List Wire.Request
  | [] => []
  | e :: es => (s.question? e).toList ++ (s.act e).elim [] fun s => s.questions es

/-- Whether an event has the reader do something else than to take in a request. -/
def isOtherReading : Event → Bool
  | .receive (.request _) => false
  | .receive _ | .read | .lose => true
  | _ => false

/-- A request that is taken in is answered, and nothing else is. -/
theorem replies_of_act (hw : s.Wired) (ha : s.act e = some s') :
    s'.client.replies = s.client.replies ++ (s.question? e).toList.map s.client.answerTo := by
  obtain ⟨ms, hms, hsend⟩ := posts_of_act hw ha
  rw [hsend.replies, List.append_cancel_left_eq]
  have hquestion : ∀ {e}, (∀ r, e ≠ .receive (.request r)) → s.question? e = none := by
    intro e he
    cases e with
    | receive m =>
      cases m with
      | request r => exact absurd rfl (he r)
      | notification | response => rfl
    | _ => rfl
  cases hms with
  | @nothing e he =>
    have hnone : s.question? e = none := by
      by_cases hr : ∃ r, e = .receive (.request r)
      · obtain ⟨r, rfl⟩ := hr
        simp [question?, he r rfl]
      · exact hquestion fun r her => hr ⟨r, her⟩
    rw [hnone]
    rfl
  | starts _ h => rw [h.noResponse]; rfl
  | exchanges _ h => rw [h.noResponse]; rfl
  | shutsDown _ h => rw [h.noResponse]; rfl
  | opens => simp [Instance.response?_announcement, question?]
  | closes => rfl
  | @answers r hs =>
    rw [question?, if_pos hs]
    rfl

/-- Whatever else the reader does queues nothing. -/
theorem queued_of_otherReading (hw : s.Wired) (he : isOtherReading e = true)
    (ha : s.act e = some s') : s'.client.queued = s.client.queued := by
  obtain ⟨ms, hms, hsend⟩ := posts_of_act hw ha
  cases hms with
  | nothing => rw [hsend.queued, List.append_nil]
  | starts | exchanges | shutsDown | opens | closes | answers => cases he

/-- By induction on the run, whose first event answers what it takes in. -/
theorem answered_of_run (hw : s.Wired) {es : List Event} (hr : s.run es = some s') :
    ∃ ws, s'.client.replies = s.client.replies ++ ws ∧
      List.Forall₂ s.client.Answers (s.questions es) ws := by
  induction es generalizing s with
  | nil =>
    cases hr
    exact ⟨[], (List.append_nil _).symm, .nil⟩
  | cons e es ih =>
    obtain ⟨s₁, ha, hr⟩ := Option.bind_eq_some_iff.mp hr
    obtain ⟨ms, -, hsend⟩ := posts_of_act hw ha
    obtain ⟨ws, hws, hall⟩ := ih (wired_act hw ha) hr
    refine ⟨(s.question? e).toList.map s.client.answerTo ++ ws, ?_, ?_⟩
    · rw [hws, replies_of_act hw ha, List.append_assoc]
    · rw [questions, ha]
      refine List.rel_append ?_ (hall.imp fun r w hrw =>
        hrw.congr hsend.roots.symm hsend.directory.symm)
      exact List.forall₂_map_right_iff.mpr
        (List.forall₂_same.mpr fun r _ => Instance.answers_answerTo s.client r)

/-- **Replies.** Along any run, from any state that an instance can come to, the responses that are
queued answer the requests that the reader takes in while frames can be queued, one for each and in
order; and whatever else the reader does queues no frame at all. -/
theorem replies_of_run (h : Reachable P s) {es : List Event} (hr : s.run es = some s') :
    (∃ ws, s'.client.replies = s.client.replies ++ ws ∧
      List.Forall₂ s.client.Answers (s.questions es) ws) ∧
    ∀ e s₁, isOtherReading e = true → s.act e = some s₁ → s₁.client.queued = s.client.queued :=
  ⟨answered_of_run (wired_of_reachable h) hr,
    fun _ _ he ha => queued_of_otherReading (wired_of_reachable h) he ha⟩

/-! ### A backend that asks -/

/-- A question for two settings. -/
def settingsQuestion : Wire.Request :=
  ⟨"2.0", .number 1, "workspace/configuration", some (.obj [("items", .arr [.obj [], .obj []])])⟩

/-- A question for the folders, with a text as its id. -/
def foldersQuestion : Wire.Request := ⟨"2.0", .text "f", "workspace/workspaceFolders", none⟩

def strangeQuestion : Wire.Request := ⟨"2.0", .number 1, "workspace/unknown", some .null⟩

/-- A sign of life, which asks for nothing. -/
def progress : Wire.Message := .notification ⟨"2.0", "$/progress", none⟩

/-- The backend asks three times, while a document is opened, a request is made, and the backend
says something else. -/
def interview : List Event :=
  [.receive (.request settingsQuestion), .opens "a" "python" "x",
    .receive (.request foldersQuestion), .receive progress, .ask "foo" none, .exchange 0,
    .receive (.request strangeQuestion)]

def attentive : Scene := (sample.run readying).getD sample

def interviewed : Scene := (attentive.run interview).getD sample

/-- Each question has its answer, and only questions have. -/
theorem replies_of_run_interview :
    attentive.run interview = some interviewed ∧ interviewed.client.queued.length = 7 ∧
    List.Forall₂ attentive.client.Answers [settingsQuestion, foldersQuestion, strangeQuestion]
      interviewed.client.replies ∧
    ∃ s, attentive.act (.receive progress) = some s ∧
      s.client.queued = attentive.client.queued := by
  have hattentive : Reachable (fun _ _ => True) attentive :=
    Reachable.of_run (s := sample) (.new _ _ _ _ _ _ _) (fun _ _ _ => trivial)
      (show sample.run readying = some attentive by rfl)
  have hr : attentive.run interview = some interviewed := by rfl
  have hquestions : attentive.questions interview =
      [settingsQuestion, foldersQuestion, strangeQuestion] := by rfl
  obtain ⟨⟨ws, hws, hall⟩, hother⟩ := replies_of_run hattentive hr
  rw [hquestions] at hall
  exact ⟨hr, by rfl, hws ▸ hall, _, rfl, hother (.receive progress) _ rfl rfl⟩

end Scene

end DiagnosticBroker
