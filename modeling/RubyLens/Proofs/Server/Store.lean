import Mathlib.Data.List.Induction
import RubyLens.Proofs.Server.Frame

/-!
The documents of a session. Of all that a client sends, only its introduction and the notifications
that are heard bear on the documents, and each notification bears on one document at most. What is
heard is up to the service, and what counts as one document to the kind of locators; both are given.

* `get?_run`: the server goes along with a reference that looks at one locator alone (`entryAfter`).
* `foldl_entryAfter_eq_some_iff`: what the reference comes to is said without following it. There is
  a document if it was opened and neither opened anew nor closed since, and it is the one opened
  with the changes since then applied.

Main statement: `documents_session`.
-/

namespace RubyLens

open Server (Environment)

variable {L : Type} [Locator L]

namespace Notification

/-- The locator of the document that is spoken of. There is none if the notification is not about a
document, or if its identifier does not give one. -/
def locator? : Notification → Option L
  | didOpen uri _ _ => uri.locator?
  | didChange uri _ _ => uri.locator?
  | didClose uri => uri.locator?
  | initialized => none
  | didChangeConfiguration _ => none

/-- Opens or closes the document under a locator. -/
def OpensOrCloses (u : L) : Notification → Prop
  | didOpen uri _ _ => uri.locator? = some u
  | didClose uri => uri.locator? = some u
  | _ => False

end Notification

namespace Server

open Json (Value)

/-! ### What is heard -/

/-- The locator of the document that a message is about. -/
def Service.locator? (v : Service) (m : Envelope) : Option L :=
  (v.notification? m).bind Notification.locator?

/-- The notifications that are heard from some point of a session on. -/
def heard : Phase → List (Environment × Envelope) → List (Environment × Notification)
  | _, [] => []
  | phase, (env, m) :: rest =>
    match env.service.deliver phase m with
    | ⟨phase, .notification n⟩ => (env, n) :: heard phase rest
    | ⟨phase, _⟩ => heard phase rest

/-- The encoding that is agreed on when the client introduces itself; without an introduction it
stays what it is. -/
def agreed (e : Encoding) : Phase → List (Environment × Envelope) → Encoding
  | _, [] => e
  | phase, (env, m) :: rest =>
    match env.service.deliver phase m with
    | ⟨_, .introduction p⟩ => Encoding.negotiate p.encodings
    | ⟨phase, _⟩ => agreed e phase rest

/-- The encoding on which a whole session settles, and the notifications that are heard in it. -/
def settled (session : List (Environment × Envelope)) :
    Encoding × List (Environment × Notification) :=
  (agreed .utf16 .fresh session, heard .fresh session)

/-- Once a session has begun, its encoding is settled. -/
theorem agreed_of_begun (e : Encoding) {phase : Phase} (hphase : phase ≠ .fresh)
    (session : List (Environment × Envelope)) : agreed e phase session = e := by
  induction session generalizing phase with
  | nil => rfl
  | cons m session ih =>
    obtain ⟨env, m⟩ := m
    have hbegun := mt (env.service.fresh_of_fresh (m := m)) hphase
    rw [agreed]
    split
    next hdelivery =>
      exact absurd (env.service.introduction_first (congrArg Delivery.call hdelivery)).1 hphase
    next hdelivery =>
      rw [hdelivery] at hbegun
      exact ih hbegun

/-! ### The document under a locator -/

variable [DecidableEq L]

/-- What a notification makes of the document under a locator. -/
def entryAfter (e : Encoding) (u : L) (entry : Option Document) :
    Environment × Notification → Option Document
  | (env, .didOpen uri text version) =>
    if uri.locator? = some u then some ⟨Source.parse env.parser text, some version⟩ else entry
  | (env, .didChange uri version changes) =>
    if uri.locator? = some u then
      entry.map fun doc =>
        ⟨Source.parse env.parser (ContentChange.applyAll e doc.source.text changes), some version⟩
    else entry
  | (_, .didClose uri) => if uri.locator? = some u then none else entry
  | (_, .initialized) => entry
  | (_, .didChangeConfiguration _) => entry

theorem entryAfter_of_ne (e : Encoding) {u : L} {n : Environment × Notification}
    (hn : n.2.locator? ≠ some u) (entry : Option Document) : entryAfter e u entry n = entry := by
  obtain ⟨env, n⟩ := n
  cases n with
  | didOpen uri text version =>
    rw [entryAfter]
    exact if_neg hn
  | didChange uri version changes =>
    rw [entryAfter]
    exact if_neg hn
  | didClose uri =>
    rw [entryAfter]
    exact if_neg hn
  | initialized => rfl
  | didChangeConfiguration settings => rfl

section Notify

variable (env : Environment) (n : Notification) (t : Turn L)

theorem state_store (url : L) (text : Text) (version : Int) :
    (store env url text version t).state = { t.state with
      documents := t.state.documents.insert url ⟨Source.parse env.parser text, some version⟩ } := by
  unfold store
  rw [state_lintAndPublish]
  rfl

/-- **One notification.** Besides the settings it changes the documents, each as the reference says;
and they are left as they are unless a document is opened, closed or open. -/
theorem state_notify :
    ∃ settings documents, (notify env n t).state = { t.state with settings, documents } ∧
      (∀ u, documents.get? u =
        entryAfter t.state.encoding u (t.state.documents.get? u) (env, n)) ∧
      ((∀ u, n.locator? = some u → ¬ n.OpensOrCloses u ∧ t.state.documents.get? u = none) →
        documents = t.state.documents) := by
  cases n with
  | initialized =>
    have h := state_initialized env t
    cases hask : (askConfiguration env t).2 with
    | none =>
      rw [hask] at h
      exact ⟨_, _, h, fun u => rfl, fun _ => rfl⟩
    | some v =>
      rw [hask] at h
      exact ⟨_, _, h, fun u => rfl, fun _ => rfl⟩
  | didChangeConfiguration settings =>
    exact ⟨_, _, state_configurationChanged env t settings, fun u => rfl, fun _ => rfl⟩
  | didOpen uri text version =>
    simp only [notify, entryAfter, Notification.locator?, Notification.OpensOrCloses]
    cases (uri.locator? : Option L) with
    | none => exact ⟨_, _, rfl, fun u => by simp, fun _ => rfl⟩
    | some url =>
      refine ⟨_, _, state_store env t url text version, fun u => ?_, fun h => ?_⟩
      · simp only [Documents.get?_insert, Option.some.injEq, eq_comm]
      · exact absurd rfl (h url rfl).1
  | didChange uri version changes =>
    simp only [notify, entryAfter, Notification.locator?, Notification.OpensOrCloses]
    cases (uri.locator? : Option L) with
    | none => exact ⟨_, _, rfl, fun u => by simp, fun _ => rfl⟩
    | some url =>
      cases hget : t.state.documents.get? url with
      | none =>
        simp only [hget]
        refine ⟨_, _, rfl, fun u => ?_, fun _ => rfl⟩
        split_ifs with hu
        · obtain rfl := Option.some.inj hu
          rw [hget]
          rfl
        · rfl
      | some doc =>
        simp only [hget]
        refine ⟨_, _, state_store env t url _ version, fun u => ?_, fun h => ?_⟩
        · rw [Documents.get?_insert]
          split_ifs with hu hu' hu'
          · rw [hu, hget]
            rfl
          · exact absurd (hu ▸ rfl) hu'
          · exact absurd (Option.some.inj hu').symm hu
          · rfl
        · rw [(h url rfl).2] at hget
          cases hget
  | didClose uri =>
    simp only [notify, entryAfter, Notification.locator?, Notification.OpensOrCloses]
    cases (uri.locator? : Option L) with
    | none => exact ⟨_, _, rfl, fun u => by simp, fun _ => rfl⟩
    | some url =>
      refine ⟨_, _, rfl, fun u => ?_, fun h => ?_⟩
      · simp only [Documents.get?_erase, Option.some.injEq, eq_comm]
      · exact absurd rfl (h url rfl).1

theorem phase_notify : (notify env n t).state.phase = t.state.phase := by
  obtain ⟨settings, documents, hstate, -, -⟩ := state_notify env n t
  rw [hstate]

end Notify

section Phase

variable (env : Environment) (s : State L) (m : Envelope)

/-- Where the session stands is up to the service alone. -/
theorem phase_receive :
    (receive env s m).turn.state.phase = (env.service.deliver s.phase m).phase := by
  rw [state_receive]
  obtain ⟨phase, call⟩ := env.service.deliver s.phase m
  cases call with
  | introduction p =>
    simp only [state_welcome]
    rfl
  | notification n => exact phase_notify env n (.begin { s with phase })
  | _ => rfl

theorem heard_cons (later : List (Environment × Envelope)) :
    heard s.phase ((env, m) :: later) =
      ((s.hears? env m).map (Prod.mk env)).toList ++
        heard (receive env s m).turn.state.phase later := by
  rw [phase_receive, heard, State.hears?]
  obtain ⟨phase, call⟩ := env.service.deliver s.phase m
  cases call <;> rfl

end Phase

/-! ### Whole sessions -/

/-- The state in which a session leaves the server, one message after the other. -/
def run (s : State L) (session : List (Environment × Envelope)) : State L :=
  session.foldl (fun s m => (receive m.1 s m.2).turn.state) s

theorem run_cons (s : State L) (env : Environment) (m : Envelope)
    (session : List (Environment × Envelope)) :
    run s ((env, m) :: session) = run (receive env s m).turn.state session := rfl

theorem run_append (s : State L) (earlier later : List (Environment × Envelope)) :
    run s (earlier ++ later) = run (run s earlier) later := List.foldl_append

/-- **The server goes along with the reference.** -/
theorem get?_run (s : State L) (session : List (Environment × Envelope)) (u : L) :
    (run s session).documents.get? u =
      (heard s.phase session).foldl (entryAfter (agreed s.encoding s.phase session) u)
        (s.documents.get? u) := by
  induction session generalizing s with
  | nil => rfl
  | cons m session ih =>
    obtain ⟨env, m⟩ := m
    have hrunning : Phase.running ≠ .fresh := by decide
    -- where the session is running, its encoding is settled
    have hrest (s' : State L) (hs' : s'.phase = .running) : (run s' session).documents.get? u =
        (heard .running session).foldl (entryAfter s'.encoding u) (s'.documents.get? u) := by
      rw [ih s', hs', agreed_of_begun _ hrunning]
    rw [run_cons, state_receive, heard, agreed]
    cases hdelivery : env.service.deliver s.phase m with
    | mk phase call =>
      have hcall := congrArg Delivery.call hdelivery
      cases call with
      | introduction p =>
        obtain ⟨-, hphase⟩ := env.service.introduction_first hcall
        rw [hdelivery] at hphase
        cases hphase
        simp only [state_welcome]
        exact hrest _ rfl
      | notification n =>
        obtain ⟨-, hphase, -⟩ := env.service.notification_running hcall
        rw [hdelivery] at hphase
        cases hphase
        obtain ⟨settings, documents, hstate, hget, -⟩ :=
          state_notify env n (.begin { s with phase := .running })
        simp only [hstate]
        rw [hrest _ rfl, hget, agreed_of_begun _ hrunning]
        rfl
      | _ => exact ih { s with phase }

/-! ### The last opening -/

/-- The text of a document as it is read at a version, after changes to the text of the version
before. -/
structure Revision where
  parser : Parser
  version : Int
  changes : List ContentChange

/-- The revision of the document under a locator that a notification makes. -/
def Revision.of? (u : L) : Environment × Notification → Option Revision
  | (env, .didChange uri version changes) =>
    if uri.locator? = some u then some ⟨env.parser, version, changes⟩ else none
  | _ => none

/-- The revisions of the document under a locator. -/
def revisions (u : L) (history : List (Environment × Notification)) : List Revision :=
  history.filterMap (Revision.of? u)

/-- A document with a first text after some revisions. -/
def revised (e : Encoding) (text : Text) (first : Revision) (later : List Revision) : Document :=
  let last := later.getLastD first
  let text := later.foldl (fun text r => ContentChange.applyAll e text r.changes) text
  ⟨Source.parse last.parser text, some last.version⟩

section Reference

variable (e : Encoding) (u : L)

theorem revised_concat (text : Text) (first r : Revision) (later : List Revision) :
    revised e text first (later ++ [r]) =
      ⟨Source.parse r.parser
        (ContentChange.applyAll e (revised e text first later).source.text r.changes),
        some r.version⟩ := by
  simp [revised, Source.parse]

/-- Between opening and closing, a document is revised and nothing else. -/
theorem entryAfter_of_not_opensOrCloses {n : Environment × Notification}
    (hn : ¬ n.2.OpensOrCloses u) (entry : Option Document) :
    entryAfter e u entry n =
      match Revision.of? u n with
      | some r => entry.map fun doc =>
          ⟨Source.parse r.parser (ContentChange.applyAll e doc.source.text r.changes),
            some r.version⟩
      | none => entry := by
  obtain ⟨env, n⟩ := n
  cases n with
  | didOpen uri text version =>
    rw [entryAfter]
    exact if_neg hn
  | didClose uri =>
    rw [entryAfter]
    exact if_neg hn
  | didChange uri version changes =>
    simp only [entryAfter, Revision.of?]
    split_ifs <;> rfl
  | initialized => rfl
  | didChangeConfiguration settings => rfl

theorem foldl_entryAfter_of_opened {later : List (Environment × Notification)}
    (hlater : ∀ n ∈ later, ¬ n.2.OpensOrCloses u) (text : Text) (first : Revision) :
    later.foldl (entryAfter e u) (some (revised e text first [])) =
      some (revised e text first (revisions u later)) := by
  induction later using List.reverseRecOn with
  | nil => rfl
  | append_singleton later n ih =>
    have ih := ih fun n h => hlater n (by simp [h])
    have hn : ¬ n.2.OpensOrCloses u := hlater n (by simp)
    have hrevisions : revisions u (later ++ [n]) =
        revisions u later ++ [n].filterMap (Revision.of? u) := List.filterMap_append
    rw [List.foldl_append, ih, hrevisions, List.foldl_cons, List.foldl_nil,
      entryAfter_of_not_opensOrCloses e u hn]
    cases hr : Revision.of? u n with
    | none => simp [hr]
    | some r => simp [hr, revised_concat]

/-- The document under a locator was opened, and since then neither opened nor closed. -/
theorem exists_opening {history : List (Environment × Notification)} {doc : Document}
    (h : history.foldl (entryAfter e u) none = some doc) :
    ∃ earlier env uri text version later,
      history = earlier ++ (env, .didOpen uri text version) :: later ∧ uri.locator? = some u ∧
        ∀ n ∈ later, ¬ n.2.OpensOrCloses u := by
  induction history using List.reverseRecOn generalizing doc with
  | nil => cases h
  | append_singleton history n ih =>
    -- induction from the end, since it is the last opening or closing that counts
    rw [List.foldl_append, List.foldl_cons, List.foldl_nil] at h
    obtain ⟨env, n⟩ := n
    by_cases hn : n.OpensOrCloses u
    · cases n with
      | didOpen uri text version =>
        exact ⟨history, env, uri, text, version, [], rfl, hn, by simp⟩
      | didClose uri =>
        have hn : uri.locator? = some u := hn
        rw [entryAfter, if_pos hn] at h
        cases h
      | _ => cases hn
    · -- the entry that the last notification leaves is there because there was one before
      have hbefore : ∃ old, history.foldl (entryAfter e u) none = some old := by
        cases hold : history.foldl (entryAfter e u) none with
        | some old => exact ⟨old, rfl⟩
        | none =>
          rw [hold, entryAfter_of_not_opensOrCloses e u hn] at h
          cases hr : Revision.of? u (env, n) <;> simp [hr] at h
      obtain ⟨old, hold⟩ := hbefore
      obtain ⟨earlier, env', uri, text, version, later, rfl, huri, hlater⟩ := ih hold
      refine ⟨earlier, env', uri, text, version, later ++ [(env, n)], by simp, huri, ?_⟩
      intro m hm
      rcases List.mem_append.1 hm with hm | hm
      · exact hlater m hm
      · rw [List.mem_singleton.1 hm]
        exact hn

theorem foldl_entryAfter_eq_some_iff (history : List (Environment × Notification))
    (doc : Document) :
    history.foldl (entryAfter e u) none = some doc ↔
      ∃ earlier env uri text version later,
        history = earlier ++ (env, .didOpen uri text version) :: later ∧ uri.locator? = some u ∧
          (∀ n ∈ later, ¬ n.2.OpensOrCloses u) ∧
          doc = revised e text ⟨env.parser, version, []⟩ (revisions u later) := by
  have hopened {earlier env uri text version later} (huri : Uri.locator? uri = some u)
      (hlater : ∀ n ∈ later, ¬ n.2.OpensOrCloses u) :
      (earlier ++ (env, .didOpen uri text version) :: later).foldl (entryAfter e u) none =
        some (revised e text ⟨env.parser, version, []⟩ (revisions u later)) := by
    rw [List.foldl_append, List.foldl_cons, entryAfter, if_pos huri]
    exact foldl_entryAfter_of_opened e u hlater text ⟨env.parser, version, []⟩
  constructor
  · intro h
    obtain ⟨earlier, env, uri, text, version, later, rfl, huri, hlater⟩ := exists_opening e u h
    rw [hopened huri hlater] at h
    exact ⟨earlier, env, uri, text, version, later, rfl, huri, hlater, (Option.some.inj h).symm⟩
  · rintro ⟨earlier, env, uri, text, version, later, rfl, huri, hlater, rfl⟩
    exact hopened huri hlater

end Reference

/-! ### One message -/

section Message

variable (env : Environment) (s : State L) (m : Envelope)

/-- The documents stay as they are unless a notification is heard. -/
theorem documents_receive :
    (receive env s m).turn.state.documents = s.documents ∨
      ∃ n, env.service.notification? m = some n ∧
        (receive env s m).turn.state = (notify env n (.begin s)).state := by
  cases hn : s.hears? env m with
  | none => exact .inl (documents_receive_of_not_hears hn)
  | some n => exact .inr ⟨n, (hears?_eq_some_iff.1 hn).2, by rw [receive_of_hears hn]⟩

/-- A message that neither opens nor closes its document, and whose document is not open. -/
theorem documents_receive_of_unopened
    (h : ∀ n (u : L), env.service.notification? m = some n → n.locator? = some u →
      ¬ n.OpensOrCloses u ∧ s.documents.get? u = none) :
    (receive env s m).turn.state.documents = s.documents := by
  rcases documents_receive env s m with hsame | ⟨n, hn, hstate⟩
  · exact hsame
  · obtain ⟨settings, documents, hnotify, -, hkeep⟩ := state_notify env n (.begin s)
    rw [hstate, hnotify]
    exact hkeep fun u hu => h n u hn hu

/-- A message about one document leaves the others as they are. -/
theorem get?_receive_of_ne {v : L} (hv : env.service.locator? m ≠ some v) :
    (receive env s m).turn.state.documents.get? v = s.documents.get? v := by
  rcases documents_receive env s m with hsame | ⟨n, hn, hstate⟩
  · rw [hsame]
  · obtain ⟨settings, documents, hnotify, hget, -⟩ := state_notify env n (.begin s)
    have hne : n.locator? ≠ some v := by
      unfold Service.locator? at hv
      rwa [hn] at hv
    rw [hstate, hnotify]
    exact (hget v).trans (entryAfter_of_ne _ hne _)

end Message

/-- **The documents of a session.** After any session there is a document under a locator exactly
if the last notification to open or close it, of those that were heard, opened it; it then has the
text of that opening with all changes since applied, the version of the latest of these
notifications, and the tree of its text. In whatever state the server is, a request, a message that
is about no locator and a change to a document that is not open leave all documents as they are,
and a message about one document leaves the others. -/
theorem documents_session :
    (∀ (session : List (Environment × Envelope)) (u : L) (doc : Document),
      (run .start session).documents.get? u = some doc ↔
        ∃ earlier env uri text version later,
          (settled session).2 = earlier ++ (env, .didOpen uri text version) :: later ∧
            uri.locator? = some u ∧ (∀ n ∈ later, ¬ n.2.OpensOrCloses u) ∧
            doc = revised (settled session).1 text ⟨env.parser, version, []⟩
              (revisions u later)) ∧
    (∀ (env : Environment) (s : State L) (m : Envelope),
      (m.isRequest → (receive env s m).turn.state.documents = s.documents) ∧
      (env.service.locator? (L := L) m = none →
        (receive env s m).turn.state.documents = s.documents) ∧
      (∀ uri version changes,
        env.service.notification? m = some (.didChange uri version changes) →
        (∀ u : L, uri.locator? = some u → s.documents.get? u = none) →
          (receive env s m).turn.state.documents = s.documents) ∧
      ∀ v, env.service.locator? m ≠ some v →
        (receive env s m).turn.state.documents.get? v = s.documents.get? v) := by
  refine ⟨fun session u doc => ?_, fun env s m => ⟨fun hm => ?_, fun hm => ?_, ?_, ?_⟩⟩
  · rw [get?_run .start session u]
    exact foldl_entryAfter_eq_some_iff (settled session).1 u (settled session).2 doc
  · refine documents_receive_of_unopened env s m fun n u hn _ => ?_
    have hcall := Call.notification?_eq_some_iff.1 hn
    obtain ⟨-, -, hnot⟩ := env.service.notification_running hcall
    rw [hm] at hnot
    cases hnot
  · refine documents_receive_of_unopened env s m fun n u hn hu => ?_
    rw [Service.locator?, hn, Option.bind_some, hu] at hm
    cases hm
  · intro uri version changes hm hclosed
    refine documents_receive_of_unopened env s m fun n u hn hu => ?_
    rw [hm] at hn
    obtain rfl := Option.some.inj hn
    exact ⟨id, hclosed u hu⟩
  · intro v hv
    exact get?_receive_of_ne env s m hv

/-- Surroundings in which there is nothing. -/
def Environment.bare : Environment where
  parser _ := none
  compare _ _ := []
  files := ⟨[], []⟩
  surroundings := none
  currentDir := "/"
  tool _ := .timedOut
  reply _ := none

/-- A document is opened under one name and changed under another. -/
def twoNames : List Envelope :=
  let named (uri : String) (version : Nat) : List (String × Value) :=
    [("uri", .text uri), ("version", .nat version)]
  [⟨"initialize", some (.record [("capabilities", .record [("general",
      .record [("positionEncodings", .list [.text "utf-8"])])])]), true⟩,
    ⟨"textDocument/didOpen", some (.record [("textDocument", .record
      (named "file:///a.rb" 1 ++ [("languageId", .text "ruby"), ("text", .text "é = 1")]))]),
      false⟩,
    ⟨"textDocument/didChange", some (.record [
      ("textDocument", .record (named "file:///b/../a.rb" 2)),
      ("contentChanges", .list [.record [("range", Range.toJson ⟨⟨0, 0⟩, ⟨0, 2⟩⟩),
        ("text", .text "e")]])]), false⟩]

/-- Two names are one locator; and where it is not open, its change is let go. -/
theorem documents_session_twoNames :
    (run .start (twoNames.map (Prod.mk .bare))).documents.get?
        (⟨"file", "", "", some "", none, .segments ["a.rb"], none, none⟩ : Url) =
      some ⟨Source.parse (fun _ => none) "e = 1".toList, some 2⟩ ∧
    ∀ m ∈ twoNames.drop 2,
      (receive .bare { (.start : State) with phase := .running } m).turn.state.documents =
        .empty := by
  constructor
  · refine (documents_session.1 _ _ _).2 ⟨[], .bare, ⟨"file:///a.rb", by decide⟩, "é = 1".toList,
      1, [(.bare, .didChange ⟨"file:///b/../a.rb", by decide⟩ 2 [⟨some ⟨⟨0, 0⟩, ⟨0, 2⟩⟩, ['e']⟩])],
      ?_, ?_, ?_, ?_⟩
    · rfl
    · decide
    · intro n hn
      rw [List.mem_singleton.1 hn]
      exact id
    · rfl
  · intro m hm
    obtain rfl := List.mem_singleton.1 hm
    refine (documents_session.2 _ _ _).2.2.1 ⟨"file:///b/../a.rb", by decide⟩ 2
      [⟨some ⟨⟨0, 0⟩, ⟨0, 2⟩⟩, ['e']⟩] ?_ ?_
    · rfl
    · intro u _
      rfl

end Server

end RubyLens
