import RubyLens.Proofs.Server.Store

/-!
Diagnostics on display. An editor shows what was published last under a name. The server publishes
diagnostics of open documents, under the names of their locators, and takes diagnostics back when a
document is closed, under the name by which the client closes it.

* `grows_notify`: who publishes under a name.
* `quiet_notify`, `quiet_iff`: while no document with that name is open, only an opening, or a closing
  by the name itself, has something published under it.
* `closing_of_stale`: diagnostics outlive their document only if it is closed by another name.

Main statement: `stale_diagnostics`.
-/

namespace RubyLens

open Json (Value)

variable {L : Type}

theorem Documents.mem_urls_of_get? [DecidableEq L] {d : Documents L} {u : L}
    (h : (d.get? u).isSome) : u ∈ d.urls := by
  obtain ⟨e, he, hu⟩ := List.lookup_isSome_iff.1 h
  rw [eq_of_beq hu]
  exact List.mem_map_of_mem he

/-! ### What is published -/

/-- The diagnostics that a message publishes under a name. -/
def Outgoing.published? (k : Uri) : Outgoing → Option (List Diagnostic)
  | publishDiagnostics uri diagnostics _ => if uri = k then some diagnostics else none
  | _ => none

namespace Server

/-- All diagnostics that were published under a name, list after list. -/
def published (k : Uri) (messages : List Outgoing) : List (List Diagnostic) :=
  messages.filterMap (Outgoing.published? k)

/-- What was sent has grown by publications under a name exactly if a condition holds. -/
def Grows (k : Uri) (sent sent' : List Outgoing) (c : Prop) : Prop :=
  ∃ added, published k sent' = published k sent ++ added ∧ (added ≠ [] ↔ c)

section Published

variable (k : Uri) (t : Turn L)

theorem published_append (sent later : List Outgoing) :
    published k (sent ++ later) = published k sent ++ published k later := List.filterMap_append

@[simp] theorem published_send (m : Outgoing) :
    published k (t.send m).sent = published k t.sent ++ (m.published? k).toList := by
  simp only [Turn.send, published_append]
  cases hm : m.published? k <;> simp [published, hm]

@[simp] theorem published_log (level : MessageLevel) (message : String) :
    published k (t.log level message).sent = published k t.sent := by
  simp [Turn.log, Outgoing.published?]

theorem published_of_works {t t' : Turn L} (h : t.Works t') :
    published k t'.sent = published k t.sent := by
  induction h with
  | refl => rfl
  | record call _ ih => exact ih
  | send m hm _ ih =>
    have hnone : m.published? k = none := by
      cases m with
      | publishDiagnostics => exact absurd rfl hm
      | _ => rfl
    rw [published_send, ih, hnone, Option.toList_none, List.append_nil]

@[simp] theorem published_reload (env : Environment)
    (sent : Option (Settings.Origin × Value)) :
    published k (reload env sent t).sent = published k t.sent := by
  have hfold (events : List Settings.Event) (t : Turn L) :
      published k (events.foldl (fun t e => t.log (eventLevel e.kind) e.message) t).sent =
        published k t.sent := by
    induction events generalizing t with
    | nil => rfl
    | cons e events ih => rw [List.foldl_cons, ih, published_log]
  unfold reload
  rcases Settings.load env.files env.surroundings t.state.root sent env.decoders with
    ⟨settings, events⟩
  exact hfold events t

theorem published_welcome [Locator L] (env : Environment) (p : InitializeParams) :
    published k (welcome env p t).sent = published k t.sent := by
  unfold welcome
  exact published_reload k _ env _

end Published

end Server

/-! ### Names -/

theorem Uri.eq_of_text {a b : Uri} (h : a.text = b.text) : a = b := by
  have ha := a.ofString?_text
  rw [h, b.ofString?_text] at ha
  exact (Option.some.inj ha).symm

variable [Locator L]

theorem Locator.uri?_eq_some_iff {u : L} {k : Uri} : uri? u = some k ↔ text u = k.text := by
  constructor
  · intro h
    unfold uri? Uri.ofString? at h
    split_ifs at h
    rw [← Option.some.inj h]
  · intro h
    rw [uri?, h, k.ofString?_text]

/-- Opens a document whose locator is written like a name, or closes one by this very name. -/
def Notification.Renews (L : Type) [Locator L] (k : Uri) : Notification → Prop
  | didOpen uri _ _ => ∃ u : L, uri.locator? = some u ∧ Locator.text u = k.text
  | didClose uri => uri = k
  | _ => False

variable [DecidableEq L]

/-- One of the documents has a locator that is written like this name. -/
def Documents.Has (d : Documents L) (k : Uri) : Prop :=
  ∃ u, (d.get? u).isSome ∧ Locator.text u = k.text

namespace Notification

/-- Has something published under a name, now that these documents are open. -/
def Publishes (k : Uri) (d : Documents L) : Notification → Prop
  | didOpen uri _ _ => ∃ u : L, uri.locator? = some u ∧ Locator.text u = k.text
  | didChange uri _ _ =>
    ∃ u : L, uri.locator? = some u ∧ Locator.text u = k.text ∧ (d.get? u).isSome
  | didClose uri => uri = k
  | initialized => d.Has k
  | didChangeConfiguration _ => d.Has k

theorem publishes_iff_renews {k : Uri} {d : Documents L} (hd : ¬ d.Has k) (n : Notification) :
    n.Publishes k d ↔ n.Renews L k := by
  cases n with
  | didOpen => exact Iff.rfl
  | didClose => exact Iff.rfl
  | didChange uri version changes =>
    refine iff_of_false ?_ id
    rintro ⟨u, -, hu, hopen⟩
    exact hd ⟨u, hopen, hu⟩
  | initialized => exact iff_of_false hd id
  | didChangeConfiguration => exact iff_of_false hd id

end Notification

namespace Server

/-! ### One notification -/

section Turn

variable (k : Uri) (env : Environment) (t : Turn L)

/-- Linting a document publishes under the name of its locator, and only if it is open. -/
theorem grows_lintAndPublish (url : L) :
    Grows k t.sent (lintAndPublish env url t).sent
      ((t.state.documents.get? url).isSome ∧ Locator.text url = k.text) := by
  rw [← Locator.uri?_eq_some_iff]
  unfold lintAndPublish
  split
  next uri doc huri hdoc =>
    have hsent (diagnostics : List Diagnostic) :
        published k ((diagnose env url uri doc t).1.send
          (.publishDiagnostics uri diagnostics doc.version)).sent =
            published k t.sent ++ (if uri = k then some diagnostics else none).toList := by
      rw [published_send, published_of_works k (works_diagnose env t url uri doc),
        Outgoing.published?]
    refine ⟨_, hsent _, ?_⟩
    rw [huri, hdoc]
    split_ifs with hk <;> simp [hk]
  next hnot =>
    refine ⟨[], by simp, iff_of_false (by simp) ?_⟩
    rintro ⟨hopen, huri⟩
    obtain ⟨doc, hdoc⟩ := Option.isSome_iff_exists.1 hopen
    exact hnot _ _ huri hdoc

/-- Linting all documents publishes under the names of the locators of those that are open. -/
theorem grows_lintAll : Grows k t.sent (lintAll env t).sent (t.state.documents.Has k) := by
  have hfold (urls : List L) (t : Turn L) :
      Grows k t.sent (urls.foldl (fun t url => lintAndPublish env url t) t).sent
        (∃ url ∈ urls, (t.state.documents.get? url).isSome ∧ Locator.text url = k.text) := by
    induction urls generalizing t with
    | nil => exact ⟨[], by simp, by simp⟩
    | cons url urls ih =>
      obtain ⟨first, hfirst, hfirst'⟩ := grows_lintAndPublish k env t url
      obtain ⟨rest, hrest, hrest'⟩ := ih (lintAndPublish env url t)
      rw [state_lintAndPublish] at hrest'
      refine ⟨first ++ rest, ?_, ?_⟩
      · rw [List.foldl_cons, hrest, hfirst, List.append_assoc]
      · simp only [List.mem_cons, exists_eq_or_imp]
        rw [← hfirst', ← hrest', Ne, List.append_eq_nil_iff, not_and_or]
  obtain ⟨added, hadded, hiff⟩ := hfold t.state.documents.urls t
  refine ⟨added, hadded, hiff.trans ⟨?_, ?_⟩⟩
  · rintro ⟨url, -, hurl⟩
    exact ⟨url, hurl⟩
  · rintro ⟨url, hurl⟩
    exact ⟨url, Documents.mem_urls_of_get? hurl.1, hurl⟩

theorem grows_configurationChanged (pushed : Value) :
    Grows k t.sent (configurationChanged env pushed t).sent (t.state.documents.Has k) := by
  unfold configurationChanged
  simpa [Grows, published_of_works k (works_askConfiguration env t)] using
    grows_lintAll k env (reload env _ (askConfiguration env t).1)

theorem grows_initialized :
    Grows k t.sent (initialized env t).sent (t.state.documents.Has k) := by
  have hstate := state_askConfiguration env t
  have hsent := published_of_works k (works_askConfiguration env t)
  unfold initialized
  rcases hask : askConfiguration env t with ⟨asked, answer⟩
  simp only [hask] at hstate hsent
  -- before all documents are linted, nothing happens to them and nothing is published
  have hlint (ready : Turn L) (hready : ready.state.documents = t.state.documents)
      (hready' : published k ready.sent = published k t.sent) :
      Grows k t.sent (lintAll env (ready.log .info "ruby-light is ready")).sent
        (t.state.documents.Has k) := by
    simpa [Grows, hready, hready'] using
      grows_lintAll k env (ready.log .info "ruby-light is ready")
  refine hlint _ ?_ ?_
  · cases answer <;> simp only <;> split <;> simp [hstate]
  · cases answer <;> simp only <;> split <;> simp [hsent, Outgoing.published?]

theorem grows_store (url : L) (text : Text) (version : Int) :
    Grows k t.sent (store env url text version t).sent (Locator.text url = k.text) := by
  unfold store
  simpa [Turn.setDocuments, Documents.get?_insert] using grows_lintAndPublish k env
    (t.setDocuments (t.state.documents.insert url ⟨Source.parse env.parser text, some version⟩)) url

theorem published_didClose (uri : Uri) :
    published k (notify env (.didClose uri) t).sent =
      published k t.sent ++ if uri = k then [[]] else [] := by
  have hsent (t' : Turn L) (h : t'.sent = t.sent) :
      published k (t'.send (.publishDiagnostics uri [] none)).sent =
        published k t.sent ++ if uri = k then [[]] else [] := by
    rw [published_send, h, Outgoing.published?]
    split_ifs <;> rfl
  simp only [notify]
  cases (uri.locator? : Option L) <;> exact hsent _ rfl

/-- **Who publishes under a name.** -/
theorem grows_notify (n : Notification) :
    Grows k t.sent (notify env n t).sent (n.Publishes k t.state.documents) := by
  cases n with
  | initialized => exact grows_initialized k env t
  | didChangeConfiguration settings => exact grows_configurationChanged k env t settings
  | didOpen uri text version =>
    simp only [notify, Notification.Publishes]
    cases (uri.locator? : Option L) with
    | none => exact ⟨[], by simp, by simp⟩
    | some url => simpa using grows_store k env t url text version
  | didChange uri version changes =>
    simp only [notify, Notification.Publishes]
    cases (uri.locator? : Option L) with
    | none => exact ⟨[], by simp, by simp⟩
    | some url =>
      cases hdoc : t.state.documents.get? url with
      | none => exact ⟨[], by simp [hdoc], by simp [hdoc]⟩
      | some doc =>
        simpa [hdoc] using grows_store k env t url
          (ContentChange.applyAll t.state.encoding doc.source.text changes) version
  | didClose uri =>
    refine ⟨if uri = k then [[]] else [], ?_, ?_⟩
    · exact published_didClose k env t uri
    · simp only [Notification.Publishes]
      split_ifs with hk <;> simp [hk]

end Turn

/-! ### One notification and the documents -/

section Documents

variable (k : Uri) (env : Environment) {n : Notification} {t : Turn L}

theorem get?_notify (u : L) : (notify env n t).state.documents.get? u =
    entryAfter t.state.encoding u (t.state.documents.get? u) (env, n) := by
  obtain ⟨settings, documents, hstate, hget, -⟩ := state_notify env n t
  rw [hstate]
  exact hget u

/-- A document is there if it was opened now, or if it was there and was not closed. -/
theorem isSome_get?_notify (u : L) :
    ((notify env n t).state.documents.get? u).isSome ↔
      match n with
      | .didOpen uri _ _ => uri.locator? = some u ∨ (t.state.documents.get? u).isSome
      | .didClose uri => uri.locator? ≠ some u ∧ (t.state.documents.get? u).isSome
      | _ => (t.state.documents.get? u).isSome := by
  rw [get?_notify]
  cases n <;> simp only [entryAfter] <;> split_ifs <;> simp [*]

variable {k}

/-- What is published belongs to an open document, unless it is a closing that publishes. -/
theorem has_of_publishes (h : n.Publishes k t.state.documents) :
    n = .didClose k ∨ (notify env n t).state.documents.Has k := by
  cases n with
  | didOpen uri text version =>
    obtain ⟨u, hu, htext⟩ := h
    exact .inr ⟨u, (isSome_get?_notify env u).2 (.inl hu), htext⟩
  | didChange uri version changes =>
    obtain ⟨u, hu, htext, hopen⟩ := h
    exact .inr ⟨u, (isSome_get?_notify env u).2 hopen, htext⟩
  | didClose uri => exact .inl (congrArg _ h)
  | initialized =>
    obtain ⟨u, hopen, htext⟩ := h
    exact .inr ⟨u, (isSome_get?_notify env u).2 hopen, htext⟩
  | didChangeConfiguration =>
    obtain ⟨u, hopen, htext⟩ := h
    exact .inr ⟨u, (isSome_get?_notify env u).2 hopen, htext⟩

/-- A document that is no longer open was closed. -/
theorem closes_of_lost (h : t.state.documents.Has k)
    (h' : ¬ (notify env n t).state.documents.Has k) :
    ∃ uri u, n = .didClose uri ∧ uri.locator? = some u ∧ Locator.text u = k.text ∧
      (t.state.documents.get? u).isSome := by
  obtain ⟨u, hopen, htext⟩ := h
  have hlost : ¬ ((notify env n t).state.documents.get? u).isSome := fun h => h' ⟨u, h, htext⟩
  rw [isSome_get?_notify] at hlost
  cases n with
  | didClose uri => exact ⟨uri, u, rfl, by_contra fun h => hlost ⟨h, hopen⟩, htext, hopen⟩
  | didOpen => exact absurd (.inr hopen) hlost
  | _ => exact absurd hopen hlost

/-- A document that is open now and was not is opened. -/
theorem renews_of_gained (h : ¬ t.state.documents.Has k)
    (h' : (notify env n t).state.documents.Has k) : n.Renews L k := by
  obtain ⟨u, hopen, htext⟩ := h'
  have hold : ¬ (t.state.documents.get? u).isSome := fun hopen => h ⟨u, hopen, htext⟩
  rw [isSome_get?_notify] at hopen
  cases n with
  | didOpen uri text version => exact ⟨u, hopen.resolve_right hold, htext⟩
  | didClose => exact absurd hopen.2 hold
  | _ => exact absurd hopen hold

end Documents

/-! ### One message -/

section Message

variable (k : Uri) (env : Environment) {s : State L} {m : Envelope}

/-- What is not heard has nothing published. -/
theorem published_receive_of_not_hears (h : s.hears? env m = none) :
    published k (receive env s m).turn.sent = [] := by
  unfold State.hears? at h
  unfold receive
  generalize env.service.deliver s.phase m = delivery at h ⊢
  obtain ⟨phase, call⟩ := delivery
  cases call with
  | introduction p => exact published_welcome k (.begin { s with phase }) env p
  | request r => exact published_of_works k (works_respond env (.begin { s with phase }) r)
  | notification n => cases h
  | _ => rfl

end Message

/-! ### Sessions -/

/-- All that the server sends in a session. -/
def sent (s : State L) : List (Environment × Envelope) → List Outgoing
  | [] => []
  | (env, m) :: rest => (receive env s m).turn.sent ++ sent (receive env s m).turn.state rest

/-- What was published last under a name, if anything was. -/
def lastPublished (k : Uri) (messages : List Outgoing) : Option (List Diagnostic) :=
  (published k messages).getLast?

theorem lastPublished_append_of_quiet {k : Uri} {later : List Outgoing}
    (h : published k later = []) (sent : List Outgoing) :
    lastPublished k (sent ++ later) = lastPublished k sent := by
  rw [lastPublished, published_append, h, List.append_nil, lastPublished]

theorem sent_append (s : State L) (earlier later : List (Environment × Envelope)) :
    sent s (earlier ++ later) = sent s earlier ++ sent (run s earlier) later := by
  induction earlier generalizing s with
  | nil => rfl
  | cons m earlier ih =>
    obtain ⟨env, m⟩ := m
    rw [List.cons_append, sent, ih, sent, run_cons, List.append_assoc]

theorem sent_concat (s : State L) (session : List (Environment × Envelope)) (env : Environment)
    (m : Envelope) : sent s (session ++ [(env, m)]) =
      sent s session ++ (receive env (run s session) m).turn.sent := by
  simp [sent_append, sent]

theorem run_concat (s : State L) (session : List (Environment × Envelope)) (env : Environment)
    (m : Envelope) : run s (session ++ [(env, m)]) =
      (receive env (run s session) m).turn.state := by
  rw [run_append, run_cons]
  rfl

section Quiet

variable {k : Uri} {s : State L}

/-- **Quiet.** While no document with a name is open, it takes an opening, or a closing by the name
itself, to have something published under it. -/
theorem quiet_notify (env : Environment) {n : Notification} {t : Turn L}
    (hk : ¬ t.state.documents.Has k) (ht : t.sent = []) :
    (published k (notify env n t).sent = [] ↔ ¬ n.Renews L k) ∧
      (¬ n.Renews L k → ¬ (notify env n t).state.documents.Has k) := by
  obtain ⟨added, hadded, hiff⟩ := grows_notify k env t n
  have hsent : published k (notify env n t).sent = added := by rw [hadded, ht]; rfl
  refine ⟨?_, fun hn h => hn (renews_of_gained env hk h)⟩
  rw [hsent, ← Notification.publishes_iff_renews hk, ← hiff, not_ne_iff]

theorem quiet_receive (env : Environment) {m : Envelope} (hk : ¬ s.documents.Has k) :
    (published k (receive env s m).turn.sent = [] ↔
        ∀ n, s.hears? env m = some n → ¬ n.Renews L k) ∧
      (published k (receive env s m).turn.sent = [] →
        ¬ (receive env s m).turn.state.documents.Has k) := by
  cases hn : s.hears? env m with
  | none =>
    rw [published_receive_of_not_hears k env hn, documents_receive_of_not_hears hn]
    exact ⟨by simp, fun _ => hk⟩
  | some n =>
    obtain ⟨hquiet, hkeep⟩ := quiet_notify env (n := n) (t := .begin s) hk rfl
    rw [receive_of_hears hn]
    exact ⟨by simpa using hquiet, fun h => hkeep (hquiet.1 h)⟩

/-- What holds of one message holds of all that follow. -/
theorem quiet_run (later : List (Environment × Envelope)) (hk : ¬ s.documents.Has k)
    (h : published k (sent s later) = []) : ¬ (run s later).documents.Has k := by
  induction later generalizing s with
  | nil => exact hk
  | cons m later ih =>
    obtain ⟨env, m⟩ := m
    rw [sent, published_append, List.append_eq_nil_iff] at h
    rw [run_cons]
    exact ih ((quiet_receive env hk).2 h.1) h.2

theorem quiet_iff (later : List (Environment × Envelope)) (hk : ¬ s.documents.Has k) :
    published k (sent s later) = [] ↔ ∀ n ∈ heard s.phase later, ¬ n.2.Renews L k := by
  induction later generalizing s with
  | nil => simp [sent, heard, published]
  | cons m later ih =>
    obtain ⟨env, m⟩ := m
    obtain ⟨hquiet, hkeep⟩ := quiet_receive env (m := m) hk
    have hfirst : published k (receive env s m).turn.sent = [] ↔
        ∀ n ∈ ((s.hears? env m).map (Prod.mk env)).toList, ¬ n.2.Renews L k := by
      rw [hquiet]
      cases s.hears? env m <;> simp
    rw [sent, published_append, List.append_eq_nil_iff, heard_cons, List.forall_mem_append, hfirst]
    exact and_congr_right fun h => ih (hkeep (hfirst.2 h))

end Quiet

/-! ### Diagnostics without a document -/

/-- A document with this name is open, and a message closes it by another name. -/
structure ClosedOtherwise (k : Uri) (env : Environment) (s : State L) (m : Envelope) (uri : Uri)
    (u : L) : Prop where
  hears : s.hears? env m = some (.didClose uri)
  locator : uri.locator? = some u
  isOpen : (s.documents.get? u).isSome
  written : Locator.text u = k.text
  otherwise : uri ≠ k

namespace ClosedOtherwise

variable {k : Uri} {env : Environment} {m : Envelope} {uri : Uri} {u : L}

theorem notification? {s : State L} (h : ClosedOtherwise k env s m uri u) :
    env.service.notification? m = some (.didClose uri) := (hears?_eq_some_iff.1 h.hears).2

theorem published_receive {s : State L} (h : ClosedOtherwise k env s m uri u) :
    published k (receive env s m).turn.sent = [] := by
  rw [receive_of_hears h.hears, published_didClose, if_neg h.otherwise]
  rfl

theorem phase_run {earlier : List (Environment × Envelope)}
    (h : ClosedOtherwise k env (run .start earlier) m uri u) :
    (run (.start : State L) (earlier ++ [(env, m)])).phase = .running := by
  rw [run_concat, receive_of_hears h.hears, phase_notify]
  exact (hears?_eq_some_iff.1 h.hears).1

end ClosedOtherwise

section Stale

variable {k : Uri} {diagnostics : List Diagnostic}

/-- Diagnostics are published for documents that are open. -/
theorem has_of_mem_published {env : Environment} {s : State L} {m : Envelope}
    (h : diagnostics ∈ published k (receive env s m).turn.sent) (hne : diagnostics ≠ []) :
    (receive env s m).turn.state.documents.Has k := by
  cases hn : s.hears? env m with
  | none =>
    rw [published_receive_of_not_hears k env hn] at h
    cases h
  | some n =>
    rw [receive_of_hears hn] at h ⊢
    obtain ⟨added, hadded, hiff⟩ := grows_notify k env (.begin s) n
    have hpublishes : n.Publishes k s.documents := by
      rw [hadded] at h
      exact hiff.1 (List.ne_nil_of_mem h)
    refine (has_of_publishes env hpublishes).resolve_left ?_
    rintro rfl
    rw [published_didClose, if_pos rfl] at h
    exact hne (List.mem_singleton.1 h)

/-- A document whose diagnostics are not taken back when it goes is closed by another name. -/
theorem closedOtherwise_of_lost (env : Environment) {s : State L} {m : Envelope}
    (h : s.documents.Has k) (h' : ¬ (receive env s m).turn.state.documents.Has k)
    (hquiet : published k (receive env s m).turn.sent = []) :
    ∃ uri u, ClosedOtherwise k env s m uri u := by
  cases hn : s.hears? env m with
  | none =>
    rw [documents_receive_of_not_hears hn] at h'
    exact absurd h h'
  | some n =>
    rw [receive_of_hears hn] at h' hquiet
    obtain ⟨uri, u, rfl, hu, hwritten, hopen⟩ := closes_of_lost env (t := .begin s) h h'
    refine ⟨uri, u, hn, hu, hopen, hwritten, ?_⟩
    rintro rfl
    rw [published_didClose, if_pos rfl] at hquiet
    cases hquiet

/-- Of diagnostics on display without a document, the closing by another name that left them. -/
theorem closing_of_stale {session : List (Environment × Envelope)} (hne : diagnostics ≠ [])
    (hlast : lastPublished k (sent (.start : State L) session) = some diagnostics)
    (hk : ¬ (run (.start : State L) session).documents.Has k) :
    ∃ earlier env m later uri, ∃ u : L, session = earlier ++ (env, m) :: later ∧
      ClosedOtherwise k env (run .start earlier) m uri u ∧
      lastPublished k (sent (.start : State L) earlier) = some diagnostics ∧
      ¬ (run (.start : State L) (earlier ++ [(env, m)])).documents.Has k ∧
      published k (sent (run (.start : State L) (earlier ++ [(env, m)])) later) = [] := by
  induction session using List.reverseRecOn with
  | nil => cases hlast
  | append_singleton session message ih =>
    -- induction from the end, since it is the last publication that counts
    obtain ⟨env, m⟩ := message
    have hk' := hk
    rw [run_concat] at hk'
    rw [sent_concat, lastPublished, published_append, List.getLast?_append] at hlast
    have hquiet : published k (receive env (run (.start : State L) session) m).turn.sent = [] := by
      by_contra hpublished
      have hlast' := List.getLast?_eq_some_getLast hpublished
      rw [hlast', Option.some_or] at hlast
      exact hk' (has_of_mem_published (List.mem_of_getLast? (hlast'.trans hlast)) hne)
    rw [hquiet, List.getLast?_nil, Option.none_or] at hlast
    by_cases hopen : (run (.start : State L) session).documents.Has k
    · obtain ⟨uri, u, hclosed⟩ := closedOtherwise_of_lost env hopen hk' hquiet
      exact ⟨session, env, m, [], uri, u, rfl, hclosed, hlast, hk, rfl⟩
    · obtain ⟨earlier, env', m', later, uri, u, rfl, hclosed, hlast', hgone, hquiet'⟩ :=
        ih hlast hopen
      refine ⟨earlier, env', m', later ++ [(env, m)], uri, u, by simp, hclosed, hlast', hgone, ?_⟩
      rw [sent_concat, published_append, hquiet', ← run_append]
      simpa using hquiet

/-- **Stale diagnostics.** The diagnostics published last under a name, if there are any, stay on
display without an open document of that name exactly if such a document was closed by another name,
one that its locator is not written like, and since then neither opened again nor closed by the name
itself. So where every document is closed by the name that its locator is written like, the
diagnostics on display are those of open documents. -/
theorem stale_diagnostics (hne : diagnostics ≠ []) (session : List (Environment × Envelope)) :
    ((lastPublished k (sent (.start : State L) session) = some diagnostics ∧
        ¬ (run (.start : State L) session).documents.Has k) ↔
      ∃ earlier env m later uri, ∃ u : L, session = earlier ++ (env, m) :: later ∧
        ClosedOtherwise k env (run .start earlier) m uri u ∧
        lastPublished k (sent (.start : State L) earlier) = some diagnostics ∧
        ¬ (run (.start : State L) (earlier ++ [(env, m)])).documents.Has k ∧
        ∀ n ∈ heard .running later, ¬ n.2.Renews L k) ∧
    ((∀ env m uri, ∀ u : L, (env, m) ∈ session →
        env.service.notification? m = some (.didClose uri) → uri.locator? = some u →
          uri.text = Locator.text u) →
      lastPublished k (sent (.start : State L) session) = some diagnostics →
        (run (.start : State L) session).documents.Has k) := by
  constructor
  · constructor
    · rintro ⟨hlast, hk⟩
      obtain ⟨earlier, env, m, later, uri, u, rfl, hclosed, hlast', hgone, hquiet⟩ :=
        closing_of_stale hne hlast hk
      rw [quiet_iff later hgone, hclosed.phase_run] at hquiet
      exact ⟨earlier, env, m, later, uri, u, rfl, hclosed, hlast', hgone, hquiet⟩
    · rintro ⟨earlier, env, m, later, uri, u, rfl, hclosed, hlast', hgone, hheard⟩
      have hquiet := quiet_iff later hgone
      rw [hclosed.phase_run] at hquiet
      rw [List.append_cons, sent_append, lastPublished_append_of_quiet (hquiet.2 hheard),
        sent_concat, lastPublished_append_of_quiet hclosed.published_receive, run_append]
      exact ⟨hlast', quiet_run later hgone (hquiet.2 hheard)⟩
  · intro hnames hlast
    by_contra hk
    obtain ⟨earlier, env, m, later, uri, u, rfl, hclosed, -⟩ := closing_of_stale hne hlast hk
    have hname := hnames env m uri u (by simp) hclosed.notification? hclosed.locator
    exact hclosed.otherwise (Uri.eq_of_text (hname.trans hclosed.written))

end Stale

/-- Surroundings in which the linter finds fault with the first character of every text. -/
def Environment.picky : Environment where
  parser _ := none
  compare _ _ := []
  files := ⟨[], [([".rubocop.yml"], some [])]⟩
  surroundings := none
  currentDir := "/"
  tool _ := .finished true true
    ("[[[[[\"Naming\",true,[1,1,1,1],\"short\",\"error\"]]]]]".toList.map fun c =>
      UInt8.ofNat c.toNat) []
  reply _ := none

/-- A document is opened, and one is closed by a given name. -/
def openAndClose (name : String) : List (Environment × Envelope) :=
  [⟨"initialize", some (.record [("capabilities", .record [])]), true⟩,
    ⟨"textDocument/didOpen", some (.record [("textDocument", .record [
      ("uri", .text "Untitled:a"), ("languageId", .text "ruby"), ("version", .nat 1),
      ("text", .text "a")])]), false⟩,
    ⟨"textDocument/didClose", some (.record [("textDocument", .record [
      ("uri", .text name)])]), false⟩].map (Prod.mk .picky)

set_option maxRecDepth 4000 in
/-- A scheme may be written in upper case, and diagnostics come back with it in lower case. They stay
when the document is closed as it was opened, and belong to an open document when another is
closed. -/
theorem stale_diagnostics_untitled :
    let k : Uri := ⟨"untitled:a", by decide⟩
    let found := [Offense.toDiagnostic .utf16 ['a'] k
      ⟨"Naming", true, ⟨1, 1, 1, 1⟩, "short", .error⟩]
    (lastPublished k (sent (.start : State) (openAndClose "Untitled:a")) = some found ∧
      ¬ (run (.start : State) (openAndClose "Untitled:a")).documents.Has k) ∧
    (run (.start : State) (openAndClose "untitled:b")).documents.Has k := by
  intro k found
  constructor
  · refine (stale_diagnostics (List.cons_ne_nil _ _) _).1.2 ⟨(openAndClose "Untitled:a").take 2,
      .picky, _, [], ⟨"Untitled:a", by decide⟩,
      ⟨"untitled", "", "", none, none, .bare "a", none, none⟩, rfl, ?_, rfl, ?_, ?_⟩
    · exact ⟨rfl, by decide, rfl, by decide, by decide⟩
    · rintro ⟨u, hopen, -⟩
      cases hopen
    · intro n hn
      cases hn
  · refine (@stale_diagnostics Url _ _ k found (List.cons_ne_nil _ _) _).2 ?_ rfl
    intro env m uri u hm hclose hu
    simp only [openAndClose, List.map_cons, List.map_nil, List.mem_cons, Prod.mk.injEq,
      List.not_mem_nil, or_false] at hm
    rcases hm with ⟨rfl, rfl⟩ | ⟨rfl, rfl⟩ | ⟨rfl, rfl⟩
    · cases hclose
    · cases hclose
    · obtain rfl : ⟨"untitled:b", by decide⟩ = uri :=
        Notification.didClose.inj (Option.some.inj hclose)
      obtain rfl : ⟨"untitled", "", "", none, none, .bare "b", none, none⟩ = u := Option.some.inj hu
      rfl

end Server

end RubyLens
