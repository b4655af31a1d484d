import RubyLens.Protocol.Incoming

/-!
The service between a client and the server. It reads messages, sees to the order of a session,
refuses what it has to refuse, and for the rest calls on the server. The server relies on three things
only: that a client introduces itself once and before all else, that notifications come between its
introduction and its leave, and that a session does not begin anew (`Service`).

The usual service is `Service.standard`.
-/

namespace RubyLens.Server

open Json (Value)

/-- Whether the client has introduced itself, and whether it has taken its leave. -/
inductive Phase where
  | fresh
  | running
  | stopped
  | exited
deriving DecidableEq, Repr

/-- A message as it arrives. -/
structure Envelope where
  method : String
  params : Option Value
  /-- A request waits for a response, a notification does not. -/
  isRequest : Bool

inductive RpcError where
  | notInitialized
  | invalidRequest
  | methodNotFound
  | invalidParams
deriving DecidableEq, Repr

def RpcError.code : RpcError → Int
  | notInitialized => -32002
  | invalidRequest => -32600
  | methodNotFound => -32601
  | invalidParams => -32602

inductive Response where
  | result (v : Value)
  | error (e : RpcError)

/-- What the server is called on to do. -/
inductive Call where
  /-- The client introduces itself. -/
  | introduction (p : InitializeParams)
  /-- The client takes its leave. -/
  | farewell
  | request (r : Request)
  | notification (n : Notification)
  /-- Nothing; the response, if one is due, is not up to the server. -/
  | nothing (response : Option Response)

/-- What becomes of a message: where the session stands then, and the call on the server. -/
structure Delivery where
  phase : Phase
  call : Call

/-- What a message comes to at each point of a session. -/
structure Service where
  deliver : Phase → Envelope → Delivery
  /-- The introduction comes first, and once only. -/
  introduction_first {phase : Phase} {m : Envelope} {p : InitializeParams} :
    (deliver phase m).call = .introduction p →
      phase = .fresh ∧ (deliver phase m).phase = .running
  /-- Notifications are heard between introduction and leave. They are no requests, and the session
  stands where it stood. -/
  notification_running {phase : Phase} {m : Envelope} {n : Notification} :
    (deliver phase m).call = .notification n →
      phase = .running ∧ (deliver phase m).phase = .running ∧ m.isRequest = false
  /-- A session that has begun does not begin anew. -/
  fresh_of_fresh {phase : Phase} {m : Envelope} :
    (deliver phase m).phase = .fresh → phase = .fresh

/-! ### The usual service -/

/-- What a message is about, as its method tells. -/
inductive Role where
  /-- The client introduces itself. -/
  | opening
  /-- No more work will come. -/
  | closing
  /-- The session is over. -/
  | leaving
  | request
  /-- A request that nothing is said to. -/
  | declined
  | notification
  /-- A notification from which nothing follows. -/
  | ignored
  /-- A method that need not be known. -/
  | optional
  | unknown
deriving DecidableEq, Repr

def Role.ofMethod (method : String) : Role :=
  if method = "initialize" then opening
  else if method = "shutdown" then closing
  else if method = "exit" then leaving
  else if Request.methods.contains method then request
  else if Notification.methods.contains method then notification
  else if (Method.declined.lookup method).isSome then declined
  else if Method.ignored.contains method then ignored
  else if "$/".toList.isPrefixOf method.toList then optional
  else unknown

namespace Envelope

variable (m : Envelope)

/-- A request is answered with an error. -/
def refusal (e : RpcError) : Call := .nothing (if m.isRequest then some (.error e) else none)

/-- The call for a request, if its parameters give one. -/
def requestCall (call? : Option Call) : Call :=
  if !m.isRequest then .nothing none else call?.getD (m.refusal .invalidParams)

def opening : Call :=
  m.requestCall ((m.params.bind InitializeParams.ofJson?).map .introduction)

/-- The client has no more work. It has nothing to add to that. -/
def closing : Call := m.requestCall (if m.params.isSome then none else some .farewell)

def request : Call := m.requestCall ((m.params.bind (Request.ofJson? m.method)).map .request)

/-- A request that is declined, if only it is well-formed. -/
def declined : Call :=
  let fits := (Method.declined.lookup m.method).any fun shape => m.params.any shape
  m.refusal (if fits then .methodNotFound else .invalidParams)

/-- A notification cannot be asked for a response. -/
def notification : Call :=
  if m.isRequest then m.refusal .invalidRequest
  else ((m.params.bind (Notification.ofJson? m.method)).map .notification).getD (.nothing none)

/-- Before the client has introduced itself, and after it has taken its leave, requests are refused
and notifications ignored. -/
def deliver (phase : Phase) : Delivery :=
  match phase, Role.ofMethod m.method with
  | .exited, _ => ⟨.exited, .nothing none⟩
  | _, .leaving => ⟨.exited, .nothing none⟩
  | phase, .optional => ⟨phase, .nothing none⟩
  | phase, .unknown => ⟨phase, m.refusal .methodNotFound⟩
  | .fresh, .opening =>
    match m.opening with
    | .introduction p => ⟨.running, .introduction p⟩
    | call => ⟨.fresh, call⟩
  | phase, .opening => ⟨phase, m.refusal .invalidRequest⟩
  | .fresh, _ => ⟨.fresh, m.refusal .notInitialized⟩
  | .stopped, _ => ⟨.stopped, m.refusal .invalidRequest⟩
  | .running, .closing => ⟨.stopped, m.closing⟩
  | .running, .request => ⟨.running, m.request⟩
  | .running, .declined => ⟨.running, m.declined⟩
  | .running, .notification => ⟨.running, m.notification⟩
  | .running, .ignored => ⟨.running, m.refusal .invalidRequest⟩

end Envelope

/-! ### What the usual service calls for -/

/-- Neither an introduction nor a notification. -/
def Call.isMinor : Call → Bool
  | .introduction _ => false
  | .notification _ => false
  | _ => true

namespace Envelope

variable (m : Envelope)

theorem isMinor_refusal (e : RpcError) : (m.refusal e).isMinor := rfl

theorem isMinor_requestCall {call? : Option Call} (h : ∀ call ∈ call?, call.isMinor) :
    (m.requestCall call?).isMinor := by
  unfold requestCall
  split
  · rfl
  · cases call? with
    | none => exact m.isMinor_refusal _
    | some call => exact h call rfl

theorem isMinor_closing : m.closing.isMinor := by
  refine m.isMinor_requestCall fun call h => ?_
  split at h
  · cases h
  · cases h
    rfl

theorem isMinor_request : m.request.isMinor := by
  refine m.isMinor_requestCall fun call h => ?_
  obtain ⟨r, -, rfl⟩ := Option.map_eq_some_iff.1 h
  rfl

theorem notification_cases :
    m.notification.isMinor ∨ m.isRequest = false ∧ ∃ n, m.notification = .notification n := by
  unfold notification
  split
  · exact .inl (m.isMinor_refusal _)
  next hm =>
    cases m.params.bind (Notification.ofJson? m.method) with
    | none => exact .inl rfl
    | some n => exact .inr ⟨eq_false_of_ne_true hm, n, rfl⟩

theorem opening_cases : m.opening.isMinor ∨ ∃ p, m.opening = .introduction p := by
  unfold opening requestCall
  split
  · exact .inl rfl
  · cases m.params.bind InitializeParams.ofJson? with
    | none => exact .inl (m.isMinor_refusal _)
    | some p => exact .inr ⟨p, rfl⟩

/-- What may become of a message: an introduction if the session is fresh, a notification while it is
running, or else a call on which the state of the server does not depend. -/
inductive Delivers (phase : Phase) : Delivery → Prop
  | introduction (p : InitializeParams) : phase = .fresh →
    Delivers phase ⟨.running, .introduction p⟩
  | notification (n : Notification) : phase = .running → m.isRequest = false →
    Delivers phase ⟨.running, .notification n⟩
  | minor {next : Phase} {call : Call} : (next = .fresh → phase = .fresh) → call.isMinor →
    Delivers phase ⟨next, call⟩

namespace Delivers

variable {m : Envelope} {phase : Phase} {delivery : Delivery} (h : m.Delivers phase delivery)

include h

theorem of_introduction {p : InitializeParams} (hcall : delivery.call = .introduction p) :
    phase = .fresh ∧ delivery.phase = .running := by
  cases h with
  | introduction _ hphase => exact ⟨hphase, rfl⟩
  | notification => cases hcall
  | minor _ hminor =>
    cases hcall
    cases hminor

theorem of_notification {n : Notification} (hcall : delivery.call = .notification n) :
    phase = .running ∧ delivery.phase = .running ∧ m.isRequest = false := by
  cases h with
  | introduction => cases hcall
  | notification _ hphase hrequest => exact ⟨hphase, rfl, hrequest⟩
  | minor _ hminor =>
    cases hcall
    cases hminor

theorem of_fresh (hnext : delivery.phase = .fresh) : phase = .fresh := by
  cases h with
  | introduction => cases hnext
  | notification => cases hnext
  | minor hfresh _ => exact hfresh hnext

end Delivers

theorem delivers_deliver (phase : Phase) : m.Delivers phase (m.deliver phase) := by
  fun_cases deliver m phase with
  | case1 => exact .minor nofun rfl
  | case2 => exact .minor nofun rfl
  | case3 => exact .minor id rfl
  | case4 => exact .minor id (m.isMinor_refusal _)
  | case5 _ p => exact .introduction p rfl
  | case6 _ hm => exact .minor id (m.opening_cases.resolve_right fun ⟨p, hp⟩ => hm p hp)
  | case7 => exact .minor id (m.isMinor_refusal _)
  | case8 => exact .minor id (m.isMinor_refusal _)
  | case9 => exact .minor id (m.isMinor_refusal _)
  | case10 => exact .minor nofun m.isMinor_closing
  | case11 => exact .minor nofun m.isMinor_request
  | case12 => exact .minor nofun (m.isMinor_refusal _)
  | case13 =>
    rcases m.notification_cases with hminor | ⟨hm, n, hn⟩
    · exact .minor nofun hminor
    · rw [hn]
      exact .notification n rfl hm
  | case14 => exact .minor nofun (m.isMinor_refusal _)

end Envelope

/-- The usual service. -/
def Service.standard : Service where
  deliver phase m := m.deliver phase
  introduction_first {phase m _} := (m.delivers_deliver phase).of_introduction
  notification_running {phase m _} := (m.delivers_deliver phase).of_notification
  fresh_of_fresh {phase m} := (m.delivers_deliver phase).of_fresh

end RubyLens.Server
