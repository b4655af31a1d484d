import RubyLens.Proofs.Server.Store

/-!
The course of a session with the usual service: a client introduces itself with `initialize`, is
heard from then on, and takes its leave with `shutdown` or `exit`.

* `introduction?_standard`, `notification?_standard`: what is an introduction, and what is heard.
* `phase_standard_fresh`, `phase_standard_running`, `phase_standard_left`: how a session moves on.

Main statement: `heard_standard`.
-/

namespace RubyLens

theorem Notification.mem_methods {method : String} {v : Json.Value} {n : Notification}
    (h : Notification.ofJson? method v = some n) : method ∈ Notification.methods := by
  unfold Notification.ofJson? at h
  split at h
  case h_6 => cases h
  all_goals simp [Notification.methods]

namespace Server

/-! ### Methods and roles -/

/-- The methods by which a session is begun and ended have a role of their own. -/
theorem method_of_role (method : String) :
    match Role.ofMethod method with
    | .opening => method = "initialize"
    | .closing => method = "shutdown"
    | .leaving => method = "exit"
    | _ => method ≠ "initialize" ∧ method ≠ "shutdown" ∧ method ≠ "exit" := by
  unfold Role.ofMethod
  split_ifs with h1 h2 h3 <;> simp [*]

theorem ofMethod_of_notification {m : Envelope} {n : Notification}
    (h : m.params.bind (Notification.ofJson? m.method) = some n) :
    Role.ofMethod m.method = .notification := by
  obtain ⟨v, -, hn⟩ := Option.bind_eq_some_iff.1 h
  have hmem := Notification.mem_methods hn
  simp only [Notification.methods, List.mem_cons, List.not_mem_nil, or_false] at hmem
  rcases hmem with h | h | h | h | h <;> rw [h] <;> decide

/-! ### Calls -/

theorem Call.introduction?_of_isMinor {call : Call} (h : call.isMinor) :
    call.introduction? = none := by
  cases call with
  | introduction => cases h
  | _ => rfl

theorem Call.notification?_of_isMinor {call : Call} (h : call.isMinor) :
    call.notification? = none := by
  cases call with
  | notification => cases h
  | _ => rfl

/-- Only two roles lead to calls on which the state of the server depends. -/
theorem Envelope.isMinor_deliver (m : Envelope) (phase : Phase)
    (hopening : Role.ofMethod m.method ≠ .opening)
    (hnotification : Role.ofMethod m.method ≠ .notification) :
    (m.deliver phase).call.isMinor := by
  fun_cases Envelope.deliver m phase with
  | case5 hr => exact absurd hr hopening
  | case6 hr => exact absurd hr hopening
  | case10 => exact m.isMinor_closing
  | case11 => exact m.isMinor_request
  | case13 hr => exact absurd hr hnotification
  | _ => rfl

namespace Service

variable (m : Envelope)

/-- The usual service hears notifications that are well-formed. -/
theorem notification?_standard : standard.notification? m =
    if m.isRequest then none else m.params.bind (Notification.ofJson? m.method) := by
  unfold notification? standard
  by_cases hnotification : Role.ofMethod m.method = .notification
  · simp only [Envelope.deliver, hnotification, Envelope.notification]
    split_ifs
    · rfl
    · cases m.params.bind (Notification.ofJson? m.method) <;> rfl
  · have hnone : m.params.bind (Notification.ofJson? m.method) = none := by
      rw [Option.eq_none_iff_forall_ne_some]
      exact fun n h => hnotification (ofMethod_of_notification h)
    rw [hnone, ite_self]
    refine Call.notification?_of_isMinor ?_
    by_cases hopening : Role.ofMethod m.method = .opening
    · simp only [Envelope.deliver, hopening]
      rfl
    · exact m.isMinor_deliver .running hopening hnotification

/-- An introduction is a well-formed request by the name of `initialize`. -/
theorem introduction?_standard : standard.introduction? m =
    if m.isRequest ∧ m.method = "initialize" then m.params.bind InitializeParams.ofJson?
    else none := by
  have hm := method_of_role m.method
  unfold introduction? standard
  by_cases hopening : Role.ofMethod m.method = .opening
  · simp only [hopening] at hm
    simp only [Envelope.deliver, Envelope.opening, Envelope.requestCall, hm, and_true]
    cases m.isRequest with
    | false => rfl
    | true => cases m.params.bind InitializeParams.ofJson? <;> rfl
  · have hmethod : m.method ≠ "initialize" := by
      intro h
      rw [h] at hopening
      exact hopening (by decide)
    rw [if_neg fun h => hmethod h.2]
    refine Call.introduction?_of_isMinor ?_
    by_cases hnotification : Role.ofMethod m.method = .notification
    · simp only [Envelope.deliver, hnotification]
      rfl
    · exact m.isMinor_deliver .fresh hopening hnotification

/-- How a session moves on before the introduction. -/
theorem phase_standard_fresh : (standard.deliver .fresh m).phase =
    if m.method = "exit" then .exited
    else if (standard.introduction? m).isSome then .running else .fresh := by
  have hm := method_of_role m.method
  unfold introduction? standard
  cases hr : Role.ofMethod m.method with
  | opening =>
    have hexit : m.method ≠ "exit" := by
      simp only [hr] at hm
      simp [hm]
    simp only [Envelope.deliver, hr]
    rw [if_neg hexit]
    cases m.opening <;> rfl
  | _ =>
    simp only [hr] at hm
    simp only [Envelope.deliver, hr]
    simp [hm, Call.introduction?, Envelope.refusal]

/-- How a session moves on after the introduction. -/
theorem phase_standard_running : (standard.deliver .running m).phase =
    if m.method = "exit" then .exited
    else if m.method = "shutdown" then .stopped else .running := by
  have hm := method_of_role m.method
  unfold standard
  cases hr : Role.ofMethod m.method with
  | _ =>
    simp only [hr] at hm
    simp only [Envelope.deliver, hr]
    simp [hm]

/-- How a session moves on after the leave. -/
theorem phase_standard_left {phase : Phase} (hphase : phase = .stopped ∨ phase = .exited) :
    (standard.deliver phase m).phase = .stopped ∨ (standard.deliver phase m).phase = .exited := by
  unfold standard
  rcases hphase with rfl | rfl
  · cases hr : Role.ofMethod m.method with
    | _ => simp [Envelope.deliver, hr]
  · exact .inr rfl

end Service

/-! ### Sessions -/

open Service (standard)

/-- Nothing is heard before the introduction and after the leave. -/
theorem Service.notification?_deliver_of_ne (v : Service) (m : Envelope) {phase : Phase}
    (hphase : phase ≠ .running) : (v.deliver phase m).call.notification? = none := by
  rw [Option.eq_none_iff_forall_ne_some]
  intro n hn
  exact hphase (v.notification_running (Call.notification?_eq_some_iff.1 hn)).1

theorem notification?_of_leave {m : Envelope} (hm : m.method = "shutdown" ∨ m.method = "exit") :
    standard.notification? m = none := by
  rw [Option.eq_none_iff_forall_ne_some]
  intro n hn
  have hrunning := (standard.notification_running (Call.notification?_eq_some_iff.1 hn)).2.1
  rw [Service.phase_standard_running] at hrunning
  rcases hm with hm | hm <;> simp [hm] at hrunning

/-- The notification that the usual service reads in a message, with its surroundings. -/
def hearing (x : Environment × Envelope) : Option (Environment × Notification) :=
  (standard.notification? x.2).map (Prod.mk x.1)

theorem heard_standard_cons {phase : Phase} {env : Environment} {m : Envelope}
    (henv : env.service = .standard) (rest : List (Environment × Envelope)) :
    heard phase ((env, m) :: rest) =
      ((standard.deliver phase m).call.notification?.map (Prod.mk env)).toList ++
        heard (standard.deliver phase m).phase rest := by
  rw [heard, henv]
  obtain ⟨phase, call⟩ := standard.deliver phase m
  cases call <;> rfl

section Heard

variable {session : List (Environment × Envelope)} (h : ∀ x ∈ session, x.1.service = .standard)

include h

theorem heard_standard_left {phase : Phase} (hphase : phase = .stopped ∨ phase = .exited) :
    heard phase session = [] := by
  induction session generalizing phase with
  | nil => rfl
  | cons x session ih =>
    obtain ⟨env, m⟩ := x
    obtain ⟨henv, hrest⟩ := List.forall_mem_cons.1 h
    have hnone : (standard.deliver phase m).call.notification? = none :=
      standard.notification?_deliver_of_ne m (by rcases hphase with rfl | rfl <;> decide)
    rw [heard_standard_cons henv, hnone, ih hrest (Service.phase_standard_left m hphase)]
    rfl

theorem heard_standard_running : heard .running session =
    ((session.takeWhile (·.2.method != "exit")).takeWhile (·.2.method != "shutdown")).filterMap
      hearing := by
  induction session with
  | nil => rfl
  | cons x session ih =>
    obtain ⟨env, m⟩ := x
    obtain ⟨henv, hrest⟩ := List.forall_mem_cons.1 h
    have hfirst : ((standard.deliver .running m).call.notification?.map (Prod.mk env)).toList =
        [(env, m)].filterMap hearing := by
      change ((standard.notification? m).map (Prod.mk env)).toList = _
      cases hn : standard.notification? m <;> simp [hearing, hn]
    rw [heard_standard_cons henv, Service.phase_standard_running, hfirst]
    by_cases hexit : m.method = "exit"
    · rw [if_pos hexit, heard_standard_left hrest (.inr rfl)]
      simp [hexit, hearing, notification?_of_leave (.inr hexit)]
    by_cases hshutdown : m.method = "shutdown"
    · rw [if_neg hexit, if_pos hshutdown, heard_standard_left hrest (.inl rfl)]
      simp [hshutdown, hearing, notification?_of_leave (.inl hshutdown)]
    rw [if_neg hexit, if_neg hshutdown, ih hrest, ← List.filterMap_append]
    simp [hexit, hshutdown]

/-- **What is heard in a session.** The usual service hears the notifications that are well-formed
and come behind the introduction, before the client takes its leave. -/
theorem heard_standard : heard .fresh session =
    ((((session.takeWhile (·.2.method != "exit")).dropWhile
      fun x => (standard.introduction? x.2).isNone).tail).takeWhile
        (·.2.method != "shutdown")).filterMap hearing := by
  induction session with
  | nil => rfl
  | cons x session ih =>
    obtain ⟨env, m⟩ := x
    obtain ⟨henv, hrest⟩ := List.forall_mem_cons.1 h
    have hnone : (standard.deliver .fresh m).call.notification? = none :=
      standard.notification?_deliver_of_ne m (by decide)
    rw [heard_standard_cons henv, Service.phase_standard_fresh, hnone]
    by_cases hexit : m.method = "exit"
    · rw [if_pos hexit, heard_standard_left hrest (.inr rfl)]
      simp [hexit]
    cases hm : standard.introduction? m with
    | none =>
      rw [if_neg hexit]
      simp [hexit, hm, ih hrest]
    | some p =>
      rw [if_neg hexit]
      simp [hexit, hm, heard_standard_running hrest]

end Heard

end Server

end RubyLens
