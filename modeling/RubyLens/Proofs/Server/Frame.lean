import Mathlib.Tactic.SplitIfs
import RubyLens.Server.Session

/-!
What a turn does to the state of the server.

* Correcting, answering a request and asking the client call the linter and send messages, but publish
  nothing and leave the state as it is (`Turn.Works`, `works_respond`); linting does publish, and
  loading settings changes nothing else.
* What a message does is said once (`state_receive`): the session moves on as the service says, and
  the rest of the state changes by introductions and notifications only. When these come is up to
  the service, and its laws are all that is used of it (`hears?_eq_some_iff`).
* Documents change only by a notification that is heard (`receive_of_hears`,
  `documents_receive_of_not_hears`).
-/

namespace RubyLens.Server

open Json (Value)

variable {L : Type}

/-! ### Work that changes nothing -/

namespace Turn

/-- From one moment of a turn to another the linter is called, and messages are sent that publish
nothing. -/
inductive Works (t : Turn L) : Turn L → Prop
  | refl : Works t t
  | record {t' : Turn L} (call : Lint.Invocation) : Works t t' → Works t (t'.record call)
  | send {t' : Turn L} (m : Outgoing) : m.method ≠ "textDocument/publishDiagnostics" → Works t t' →
    Works t (t'.send m)

theorem Works.log {t t' : Turn L} (level : MessageLevel) (message : String) (h : Works t t') :
    Works t (t'.log level message) := .send _ (by simp [Outgoing.method]) h

theorem Works.state {t t' : Turn L} (h : Works t t') : t'.state = t.state := by
  induction h with
  | refl => rfl
  | record call _ ih => exact ih
  | send m _ _ ih => exact ih

end Turn

section Work

variable (env : Environment) (t : Turn L)

theorem works_askConfiguration : t.Works (askConfiguration env t).1 := by
  unfold askConfiguration
  split
  · exact .refl
  · exact .send _ (by simp [Outgoing.method]) .refl

variable [Locator L]

theorem works_diagnose (url : L) (uri : Uri) (doc : Document) :
    t.Works (diagnose env url uri doc t).1 := by
  unfold diagnose
  split
  · exact .refl
  · split
    · exact .refl
    · simp only
      split
      · exact .record _ .refl
      · exact .log _ _ (.record _ .refl)

variable [DecidableEq L]

theorem works_correct (uri : Uri) (cop : Option String) (range : Option Range) :
    t.Works (correct env uri cop range t).1 := by
  unfold correct
  split
  · exact .refl
  · split
    · simp only
      split
      · exact .record _ .refl
      · exact .log _ _ (.record _ .refl)
    · exact .refl

theorem works_formatted (uri : Uri) (range : Option Range) :
    t.Works (formatted env uri range t).1 := by
  unfold formatted
  split
  · exact .refl
  · have h := works_correct env t uri none range
    generalize correct env uri none range t = corrected at h ⊢
    exact h

theorem works_execute (command : String) (arguments : List Value) :
    t.Works (execute env command arguments t) := by
  unfold execute
  split
  · exact .refl
  · split
    · exact .refl
    next c _ =>
      have h := works_correct env t c.uri (some c.copName) (some c.range)
      generalize correct env c.uri (some c.copName) (some c.range) t = corrected at h ⊢
      obtain ⟨t', found⟩ := corrected
      cases found with
      | none => exact h
      | some found => exact h.send _ (by simp [Outgoing.method])

/-- **A request changes nothing.** -/
theorem works_respond (r : Request) : t.Works (respond env r t).1 := by
  cases r with
  | formatting uri => exact works_formatted env t uri none
  | rangeFormatting uri range => exact works_formatted env t uri (some range)
  | executeCommand command arguments => exact works_execute env t command arguments
  | documentHighlight => exact .refl
  | selectionRange => exact .refl
  | documentSymbol => exact .refl
  | codeAction => exact .refl

end Work

/-! ### Linting -/

theorem state_foldl {α : Type} {f : Turn L → α → Turn L} (h : ∀ t a, (f t a).state = t.state)
    (items : List α) (t : Turn L) : (items.foldl f t).state = t.state := by
  induction items generalizing t with
  | nil => rfl
  | cons a items ih => rw [List.foldl_cons, ih, h]

section Linting

variable [DecidableEq L] [Locator L] (env : Environment)

@[simp] theorem state_lintAndPublish (url : L) (t : Turn L) :
    (lintAndPublish env url t).state = t.state := by
  unfold lintAndPublish
  split
  · exact (works_diagnose env t url _ _).state
  · rfl

@[simp] theorem state_lintAll (t : Turn L) : (lintAll env t).state = t.state :=
  state_foldl (fun t url => state_lintAndPublish env url t) t.state.documents.urls t

end Linting

/-! ### Settings -/

/-- The settings as they are loaded for a workspace. -/
def loaded (env : Environment) (root : Option Path) (sent : Option (Settings.Origin × Value)) :
    Settings := (Settings.load env.files env.surroundings root sent env.decoders).1

@[simp] theorem state_reload (env : Environment) (sent : Option (Settings.Origin × Value))
    (t : Turn L) :
    (reload env sent t).state = { t.state with settings := loaded env t.state.root sent } := by
  have h := state_foldl (f := fun t e => Turn.log (eventLevel e.kind) e.message t)
    (fun t e => rfl) (Settings.load env.files env.surroundings t.state.root sent env.decoders).2 t
  unfold reload
  simp only [h]
  rfl

@[simp] theorem state_askConfiguration (env : Environment) (t : Turn L) :
    (askConfiguration env t).1.state = t.state := (works_askConfiguration env t).state

section Configuration

variable [Locator L] (env : Environment) (t : Turn L)

theorem state_welcome (p : InitializeParams) :
    (welcome env p t).state = { t.state with
      encoding := Encoding.negotiate p.encodings
      answersConfiguration := p.answersConfiguration
      registersConfiguration := p.registersConfiguration
      root := some (rootPath L env p)
      settings := loaded env (some (rootPath L env p))
        (p.options.map fun v => (.initializationOptions, v)) } := by
  simp [welcome]

variable [DecidableEq L]

theorem state_configurationChanged (pushed : Value) :
    (configurationChanged env pushed t).state = { t.state with
      settings := loaded env t.state.root
        (((askConfiguration env t).2.or (pushedPart pushed)).map fun v =>
          (.clientConfiguration, v)) } := by
  simp [configurationChanged]

theorem state_initialized :
    (initialized env t).state =
      match (askConfiguration env t).2 with
      | some v => { t.state with
          settings := loaded env t.state.root (some (.clientConfiguration, v)) }
      | none => t.state := by
  have h := state_askConfiguration env t
  unfold initialized
  rcases hask : askConfiguration env t with ⟨t', answer⟩
  rw [hask] at h
  cases answer with
  | none =>
    simp only [state_lintAll, Turn.state_log]
    split <;> exact h
  | some v =>
    simp only [state_lintAll, Turn.state_log]
    split
    · rw [Turn.state_send, state_reload, h]
    · rw [state_reload, h]

end Configuration

/-! ### Messages -/

namespace Call

def introduction? : Call → Option InitializeParams
  | introduction p => some p
  | _ => none

def notification? : Call → Option Notification
  | notification n => some n
  | _ => none

end Call

namespace Service

variable (v : Service) (m : Envelope)

/-- What the client tells about itself, if the message is its introduction. -/
def introduction? : Option InitializeParams := (v.deliver .fresh m).call.introduction?

/-- The notification in a message. -/
def notification? : Option Notification := (v.deliver .running m).call.notification?

end Service

/-- The notification in a message, if the server hears of it. -/
def State.hears? (env : Environment) (s : State L) (m : Envelope) : Option Notification :=
  (env.service.deliver s.phase m).call.notification?

theorem Call.introduction?_eq_some_iff {call : Call} {p : InitializeParams} :
    call.introduction? = some p ↔ call = .introduction p := by
  cases call <;> simp [Call.introduction?]

theorem Call.notification?_eq_some_iff {call : Call} {n : Notification} :
    call.notification? = some n ↔ call = .notification n := by
  cases call <;> simp [Call.notification?]

section Turns

variable {env : Environment} {s : State L} {m : Envelope}

theorem hears?_eq_some_iff {n : Notification} :
    s.hears? env m = some n ↔ s.phase = .running ∧ env.service.notification? m = some n := by
  constructor
  · intro h
    have hphase := (env.service.notification_running (Call.notification?_eq_some_iff.1 h)).1
    exact ⟨hphase, by rwa [State.hears?, hphase] at h⟩
  · rintro ⟨hphase, h⟩
    rwa [State.hears?, hphase]

variable [DecidableEq L] [Locator L]

/-- **One message.** The session moves on, and besides that the state changes if the client
introduces itself or something is heard. -/
theorem state_receive :
    (receive env s m).turn.state =
      match env.service.deliver s.phase m with
      | ⟨phase, .introduction p⟩ => (welcome env p (.begin { s with phase })).state
      | ⟨phase, .notification n⟩ => (notify env n (.begin { s with phase })).state
      | ⟨phase, _⟩ => { s with phase } := by
  unfold receive
  obtain ⟨phase, call⟩ := env.service.deliver s.phase m
  cases call with
  | request r => exact (works_respond env (.begin { s with phase }) r).state
  | _ => rfl

/-- The introduction is taken in, and the session is running. -/
theorem state_receive_of_introduction {p : InitializeParams} (hs : s.phase = .fresh)
    (hm : env.service.introduction? m = some p) :
    (receive env s m).turn.state =
      (welcome env p (.begin { s with phase := .running })).state := by
  have hcall := Call.introduction?_eq_some_iff.1 hm
  have hnext := (env.service.introduction_first hcall).2
  rw [state_receive, hs]
  generalize env.service.deliver .fresh m = delivery at hcall hnext ⊢
  obtain ⟨phase, call⟩ := delivery
  cases hcall
  cases hnext
  rfl

/-- What is heard is taken in, and that is the turn. -/
theorem receive_of_hears {n : Notification} (h : s.hears? env m = some n) :
    receive env s m = ⟨notify env n (.begin s), none⟩ := by
  have hcall := Call.notification?_eq_some_iff.1 h
  obtain ⟨hphase, hnext, -⟩ := env.service.notification_running hcall
  have hsame : { s with phase := Phase.running } = s := by rw [← hphase]
  simp only [receive, hcall, hnext, hsame]

/-- What is not heard leaves the documents as they are. -/
theorem documents_receive_of_not_hears (h : s.hears? env m = none) :
    (receive env s m).turn.state.documents = s.documents := by
  rw [state_receive]
  unfold State.hears? at h
  generalize env.service.deliver s.phase m = delivery at h ⊢
  obtain ⟨phase, call⟩ := delivery
  cases call with
  | introduction p =>
    simp only [state_welcome]
    rfl
  | notification n => cases h
  | _ => rfl

end Turns

end RubyLens.Server
