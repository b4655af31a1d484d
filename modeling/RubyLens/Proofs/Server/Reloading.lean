import RubyLens.Proofs.Server.Store

/-!
Settings over a session in which nothing is configured anew: the files stay as they are, and
whatever the client says about its configuration is null. The options of its introduction and its
configuration are one layer, for which the last word counts; a null says that this layer is not
there, and what the options had set is taken back.

* `loaded_congr`, `loaded_of_silent`: what the loaded settings depend on.
* `settings_notify`, `settings_run`: settings change only where they are loaded anew.

Main statement: `settings_session`.
-/

namespace RubyLens.Server

open Json (Value)

variable {L : Type}

/-! ### Layers -/

/-- The files of the user and of the project give the same layers, if any, in both surroundings. -/
structure SameFiles (root : Option Path) (env env' : Environment) : Prop where
  user : (Settings.userLayer env.files env.decoders env.surroundings).1 =
    (Settings.userLayer env'.files env'.decoders env'.surroundings).1
  project : (Settings.projectLayer env.files env.decoders root).1 =
    (Settings.projectLayer env'.files env'.decoders root).1

section Loaded

variable {env env' : Environment} {root : Option Path}

theorem loaded_congr (h : SameFiles root env env') : loaded env root none = loaded env' root none := by
  have hnone (d : Settings.Decoders) : (Settings.clientLayer d none).1 = none := rfl
  simp only [loaded, Settings.load, h.user, h.project, hnone]

/-- What a client sends only matters for the layer that it gives. -/
theorem loaded_of_silent {sent : Option (Settings.Origin × Value)}
    (h : (Settings.clientLayer env.decoders sent).1 = none) :
    loaded env root sent = loaded env root none := by
  have hnone : (Settings.clientLayer env.decoders none).1 = none := rfl
  simp only [loaded, Settings.load, h, hnone]

end Loaded

/-! ### One notification -/

/-- The client answers when it is asked for its configuration. -/
def Environment.Answers (env : Environment) (v : Value) : Prop :=
  ∃ rest, env.reply "workspace/configuration" = some (.list (v :: rest))

/-- A notification has the settings loaded anew; `asked` tells whether the client can be asked for
its configuration. -/
def Reloads (asked : Bool) : Environment × Notification → Prop
  | (env, .initialized) => asked ∧ ∃ v, env.Answers v
  | (_, .didChangeConfiguration _) => True
  | _ => False

section Notify

variable {env : Environment} {n : Notification} {t : Turn L}

theorem askConfiguration_eq_some_iff {v : Value} :
    (askConfiguration env t).2 = some v ↔ t.state.answersConfiguration ∧ env.Answers v := by
  unfold askConfiguration Environment.Answers
  cases t.state.answersConfiguration with
  | false => simp
  | true =>
    simp only [Bool.not_true, Bool.false_eq_true, if_false, true_and, Outgoing.method]
    split <;> simp_all

/-- Nothing comes of asking a client that has only null to answer. -/
theorem loaded_of_answer (hanswers : ∀ v, env.Answers v → v = .null) (root : Option Path) :
    loaded env root ((askConfiguration env t).2.map fun v => (.clientConfiguration, v)) =
      loaded env root none := by
  refine loaded_of_silent ?_
  cases hask : (askConfiguration env t).2 with
  | none => rfl
  | some v =>
    obtain rfl := hanswers v (askConfiguration_eq_some_iff.1 hask).2
    rfl

variable [DecidableEq L] [Locator L]

/-- **One notification.** -/
theorem settings_notify (hanswers : ∀ v, env.Answers v → v = .null)
    (hpushed : ∀ v, n = .didChangeConfiguration v → v = .null) :
    (Reloads t.state.answersConfiguration (env, n) →
      (notify env n t).state.settings = loaded env t.state.root none) ∧
    (¬ Reloads t.state.answersConfiguration (env, n) →
      (notify env n t).state.settings = t.state.settings) := by
  cases n with
  | didOpen uri text version =>
    refine ⟨False.elim, fun _ => ?_⟩
    rw [notify]
    cases (uri.locator? : Option L) with
    | none => rfl
    | some url => simp [state_store]
  | didChange uri version changes =>
    refine ⟨False.elim, fun _ => ?_⟩
    rw [notify]
    cases (uri.locator? : Option L) with
    | none => rfl
    | some url => cases hdoc : t.state.documents.get? url <;> simp [hdoc, state_store]
  | didClose uri =>
    refine ⟨False.elim, fun _ => ?_⟩
    rw [notify]
    cases (uri.locator? : Option L) <;> rfl
  | didChangeConfiguration settings =>
    refine ⟨fun _ => ?_, fun h => absurd trivial h⟩
    obtain rfl := hpushed settings rfl
    rw [notify, state_configurationChanged, pushedPart, Option.or_none]
    exact loaded_of_answer hanswers t.state.root
  | initialized =>
    have hloaded := loaded_of_answer (t := t) hanswers t.state.root
    rw [notify, state_initialized, Reloads]
    cases hask : (askConfiguration env t).2 with
    | none =>
      refine ⟨?_, fun _ => rfl⟩
      rintro ⟨hasked, v, hv⟩
      rw [askConfiguration_eq_some_iff.2 ⟨hasked, hv⟩] at hask
      cases hask
    | some v =>
      rw [hask] at hloaded
      have hv := askConfiguration_eq_some_iff.1 hask
      exact ⟨fun _ => hloaded, fun h => absurd ⟨hv.1, v, hv.2⟩ h⟩

end Notify

/-! ### Sessions -/

/-- Nothing is configured anew: the files stay as they were found at first, and what the client
answers for our part of its configuration, and what it pushes, is null. -/
structure Unconfigured (root : Option Path) (first : Environment)
    (session : List (Environment × Envelope)) : Prop where
  files : ∀ x ∈ session, SameFiles root x.1 first
  answers : ∀ x ∈ session, ∀ v, x.1.Answers v → v = .null
  pushed : ∀ x ∈ session, ∀ v,
    x.1.service.notification? x.2 = some (.didChangeConfiguration v) → v = .null

section Run

variable {root : Option Path} {first : Environment}

theorem Unconfigured.tail {x : Environment × Envelope} {session : List (Environment × Envelope)}
    (h : Unconfigured root first (x :: session)) : Unconfigured root first session where
  files y hy := h.files y (List.mem_cons_of_mem x hy)
  answers y hy := h.answers y (List.mem_cons_of_mem x hy)
  pushed y hy := h.pushed y (List.mem_cons_of_mem x hy)

variable [DecidableEq L] [Locator L]

/-- **A session.** Once the settings are loaded anew they are those of the files, and until then
they stay. -/
theorem settings_run {s : State L} (hs : s.phase ≠ .fresh)
    {session : List (Environment × Envelope)} (h : Unconfigured s.root first session) :
    ((∃ n ∈ heard s.phase session, Reloads s.answersConfiguration n) →
      (run s session).settings = loaded first s.root none) ∧
    ((∀ n ∈ heard s.phase session, ¬ Reloads s.answersConfiguration n) →
      (run s session).settings = s.settings) := by
  induction session generalizing s with
  | nil => simp [heard, run]
  | cons x session ih =>
    obtain ⟨env, m⟩ := x
    have hbegun := mt (env.service.fresh_of_fresh (m := m)) hs
    rw [run_cons, state_receive, heard]
    cases hdelivery : env.service.deliver s.phase m with
    | mk phase call =>
      have hcall := congrArg Delivery.call hdelivery
      rw [hdelivery] at hbegun
      cases call with
      | introduction p => exact absurd (env.service.introduction_first hcall).1 hs
      | notification n =>
        have hn : env.service.notification? m = some n := by
          have hrunning := (env.service.notification_running hcall).1
          rw [Service.notification?, ← hrunning, hcall]
          rfl
        obtain ⟨settings, documents, hstate, -, -⟩ := state_notify env n (.begin { s with phase })
        have hstep := settings_notify (t := .begin { s with phase })
          (h.answers (env, m) List.mem_cons_self)
          fun v hv => h.pushed (env, m) List.mem_cons_self v (hv ▸ hn)
        have hrest := ih (s := { s with phase, settings, documents }) hbegun h.tail
        simp only [Turn.state_begin] at hstate
        simp only [hstate, Turn.state_begin] at hstep ⊢
        constructor
        · rintro ⟨n', hn', hreloads⟩
          by_cases hlater : ∃ n ∈ heard phase session, Reloads s.answersConfiguration n
          · exact hrest.1 hlater
          · -- nothing is loaded later, so it is this notification that counts
            obtain rfl | hn' := List.mem_cons.1 hn'
            · rw [hrest.2 fun n hn h => hlater ⟨n, hn, h⟩]
              exact (hstep.1 hreloads).trans (loaded_congr (h.files (env, m) List.mem_cons_self))
            · exact absurd ⟨n', hn', hreloads⟩ hlater
        · intro hnone
          rw [List.forall_mem_cons] at hnone
          exact (hrest.2 hnone.2).trans (hstep.2 hnone.1)
      | _ => exact ih (s := { s with phase }) hbegun h.tail

/-- **Settings without configuration.** The client introduces itself, perhaps with options, and from
then on nothing is configured anew. The settings are those of the introduction until they are loaded
anew, when the server is told that the client is ready and gets an answer from it, or that
configuration has changed; from then on they are those of the defaults and the files, without the
options. So they stay the same where the options add nothing. -/
theorem settings_session {before session : List (Environment × Envelope)} {first : Environment}
    {m : Envelope} {p : InitializeParams} (hfresh : (run (.start : State L) before).phase = .fresh)
    (hm : first.service.introduction? m = some p)
    (hsession : Unconfigured (some (rootPath L first p)) first session) :
    let root := some (rootPath L first p)
    let options := p.options.map fun v => (Settings.Origin.initializationOptions, v)
    let introduced := run (.start : State L) (before ++ [(first, m)])
    let final := run (.start : State L) (before ++ (first, m) :: session)
    introduced.settings = loaded first root options ∧
    ((∃ n ∈ heard .running session, Reloads p.answersConfiguration n) →
      final.settings = loaded first root none) ∧
    ((∀ n ∈ heard .running session, ¬ Reloads p.answersConfiguration n) →
      final.settings = loaded first root options) ∧
    ((Settings.clientLayer first.decoders options).1 = none →
      final.settings = introduced.settings) := by
  intro root options introduced final
  have hintroduced : introduced =
      (welcome first p (.begin { run (.start : State L) before with phase := .running })).state := by
    simp only [introduced, run_append, run_cons, state_receive_of_introduction hfresh hm]
    rfl
  have hfinal : final = run introduced session := by
    simp only [final, introduced, run_append]
    rfl
  rw [state_welcome] at hintroduced
  have hphase : introduced.phase = .running := by rw [hintroduced]; rfl
  have hroot : introduced.root = root := by rw [hintroduced]
  have hasked : introduced.answersConfiguration = p.answersConfiguration := by rw [hintroduced]
  have hsettings : introduced.settings = loaded first root options := by rw [hintroduced]
  have hrun : ((∃ n ∈ heard .running session, Reloads p.answersConfiguration n) →
        final.settings = loaded first root none) ∧
      ((∀ n ∈ heard .running session, ¬ Reloads p.answersConfiguration n) →
        final.settings = introduced.settings) := by
    rw [hfinal, ← hasked, ← hroot, ← hphase]
    exact settings_run (by rw [hphase]; decide) (hroot ▸ hsession)
  refine ⟨hsettings, hrun.1, fun h => (hrun.2 h).trans hsettings, fun hsilent => ?_⟩
  by_cases hreloads : ∃ n ∈ heard .running session, Reloads p.answersConfiguration n
  · rw [hrun.1 hreloads, hsettings, loaded_of_silent hsilent]
  · exact hrun.2 fun n hn h => hreloads ⟨n, hn, h⟩

end Run

/-- A client that is asked for its configuration and has nothing set. -/
def Environment.unset : Environment :=
  { Environment.bare with reply := fun _ => some (.list [.null]) }

/-- The introduction, with options, of a client that can be asked for its configuration. -/
def introduction (options : Value) : Envelope :=
  ⟨"initialize", some (.record [
    ("capabilities", .record [("workspace", .record [("configuration", .bool true)])]),
    ("initializationOptions", options)]), true⟩

/-- The client is ready. -/
def ready : Envelope := ⟨"initialized", some (.record []), false⟩

/-- Options that turn one thing off. -/
def noOutline : Value := .record [("documentSymbol", .record [("enabled", .bool false)])]

theorem unconfigured_ready {env : Environment} (h : env = .unset ∨ env = .bare) :
    Unconfigured (some "/") .unset [(env, ready)] := by
  refine ⟨fun x hx => ?_, fun x hx v hv => ?_, fun x hx v hv => ?_⟩ <;>
    obtain rfl := List.mem_singleton.1 hx
  · rcases h with rfl | rfl <;> exact ⟨rfl, rfl⟩
  · obtain ⟨rest, hreply⟩ := hv
    rcases h with rfl | rfl
    · exact (List.cons.inj (Value.list.inj (Option.some.inj hreply))).1.symm
    · cases hreply
  · rcases h with rfl | rfl <;> cases hv

/-- Options count until the client says that nothing is set; it may also not answer, or have no
options to begin with. -/
theorem settings_session_unset :
    (run (.start : State) [(.unset, introduction noOutline), (.unset, ready)]).settings =
      Layer.defaults.resolve ∧
    (run (.start : State) [(.unset, introduction noOutline), (.bare, ready)]).settings.documentSymbol =
      false ∧
    (run (.start : State) [(.unset, introduction .null), (.unset, ready)]).settings =
      (run (.start : State) [(.unset, introduction .null)]).settings := by
  have hanswered := @settings_session Url _ _ [] [(.unset, ready)] .unset (introduction noOutline) _
    rfl rfl (unconfigured_ready (.inl rfl))
  have hunanswered := @settings_session Url _ _ [] [(.bare, ready)] .unset (introduction noOutline) _
    rfl rfl (unconfigured_ready (.inr rfl))
  have hnull := @settings_session Url _ _ [] [(.unset, ready)] .unset (introduction .null) _
    rfl rfl (unconfigured_ready (.inl rfl))
  refine ⟨?_, ?_, hnull.2.2.2 rfl⟩
  · exact hanswered.2.1 ⟨(.unset, .initialized), List.mem_singleton_self _, rfl, .null, [], rfl⟩
  · refine congrArg Settings.documentSymbol (hunanswered.2.2.1 fun n hn hreloads => ?_)
    obtain rfl := List.mem_singleton.1 hn
    obtain ⟨-, v, rest, hreply⟩ := hreloads
    cases hreply

/-- A client that answers null does have its options taken back. -/
theorem not_settings_kept :
    ¬ ∀ (before session : List (Environment × Envelope)) (first : Environment) (m : Envelope)
      (p : InitializeParams), (run (.start : State) before).phase = .fresh →
      first.service.introduction? m = some p →
      Unconfigured (some (rootPath Url first p)) first session →
      (run (.start : State) (before ++ (first, m) :: session)).settings =
        (run (.start : State) (before ++ [(first, m)])).settings := by
  intro hkept
  have h := hkept [] [(.unset, ready)] .unset (introduction noOutline) _ rfl rfl
    (unconfigured_ready (.inl rfl))
  have houtline := congrArg Settings.documentSymbol h
  exact absurd houtline (by decide)

end RubyLens.Server
