import Mathlib
import Termua.Lib.History
import Termua.Lib.Serde
import Termua.Lib.Text

/-!
# The authentication of an SSH session

`authenticate_session` of `gpui_term/src/backends/ssh.rs` and the drain that it hands the receiver of
the events to, one turn for each event that is received. What the trust prompt and the sending of the
answers come to is part of what is received. A turn of the loop goes on only from what `Continues`
lists, so a run is as it should be until the loop meets what `Slips` lists (`secureAuth_iff`).
-/

namespace Termua.Ssh

open History (Entry entries entries_cons_of_some forall_mem_entries pairwise_entries)
open Serde (Text)

/-! ## The code -/

/-- `AuthenticationPrompt`. -/
structure AuthenticationPrompt where
  prompt : Text
  echo : Bool
  deriving DecidableEq

/-- `SessionEvent`; a failed verification of the host is its text. -/
inductive SessionEvent
  | banner (banner : Option Text)
  | hostVerify (message : Text)
  | authenticate (prompts : List AuthenticationPrompt)
  | hostVerificationFailed (failed : Text)
  | error (err : Text)
  | authenticated
  deriving DecidableEq

/-- What `recv_event_or_timeout` comes back with. With an event comes what `prompt_trust_unknown_host`
returns for it and whether its answers can be sent. -/
inductive Received
  | event (e : SessionEvent) (decision : Option Bool) (sent : Except Text Unit)
  | timedOut
  | closed

/-- What is sent back to the session thread. -/
inductive Answer
  | trust (trustHost : Bool)
  | prompts (answers : List Text)
  deriving DecidableEq

/-- Where `authenticate_session` is. -/
inductive AuthPhase
  | authenticating (passwordPromptCount : ℕ)
  /-- It returned the session and the receiver. -/
  | authenticated
  /-- It returned the error, and the drain has the receiver. -/
  | draining (err : Text)
  /-- It returned the error, and the receiver is dropped. -/
  | dropped (err : Text)
  deriving DecidableEq

/-- `MAX_PASSWORD_PROMPTS`. -/
def maxPasswordPrompts : ℕ := 3

/-- `prompt_is_password_like`. -/
def promptIsPasswordLike (prompt : Text) : Bool :=
  let p := prompt.map Char.toLower
  "password".toList <:+: p || "passphrase".toList <:+: p

/-- The words of `prompt_is_otp_like`. -/
def otpWords : List String :=
  ["verification code", "verification-code", "one-time", "one time", "otp", "totp", "2fa",
    "two-factor", "two factor", "auth code", "auth-code", "token", "security code"]

/-- `prompt_is_otp_like`. -/
def promptIsOtpLike (prompt : Text) : Bool :=
  let p := prompt.map Char.toLower
  otpWords.any fun word => word.toList <:+: p

/-- `AuthPromptPlan`. -/
structure AuthPromptPlan where
  answers : List Text
  usedPassword : Bool
  sawOtpPrompt : Bool
  promptsSummary : Text

/-- `build_auth_prompt_plan`. -/
def buildAuthPromptPlan (prompts : List AuthenticationPrompt) (password : Text) : AuthPromptPlan where
  answers := prompts.map fun p => if promptIsPasswordLike p.prompt then password else []
  usedPassword := prompts.any fun p => promptIsPasswordLike p.prompt
  sawOtpPrompt := prompts.any fun p =>
    !promptIsPasswordLike p.prompt && !p.echo && promptIsOtpLike p.prompt
  promptsSummary :=
    " | ".toList.intercalate ((prompts.map fun p => Text.trim p.prompt).filter (· ≠ []))

/-- The answers where there is no password. -/
def noAnswers (prompts : List AuthenticationPrompt) : List Text := prompts.map fun _ => []

/-- `abort_auth`. -/
def abortAuth (err : Text) : AuthPhase := .draining err

/-- A turn of the loop of `authenticate_session`. -/
def authTurn (authPassword : Option Text) (passwordPromptCount : ℕ) :
    Received → List Answer × AuthPhase
  | .closed => ([], .dropped "ssh login error: connection closed during authentication".toList)
  | .timedOut => ([], abortAuth "ssh login error: authentication timed out".toList)
  | .event (.banner _) _ _ => ([], .authenticating passwordPromptCount)
  | .event (.hostVerify _) decision _ =>
    let trusted := decision.getD false
    ([.trust trusted],
      if !trusted then abortAuth "ssh login error: host key not trusted".toList
      else .authenticating passwordPromptCount)
  | .event (.authenticate prompts) _ sent =>
    match authPassword with
    | none =>
      ([.prompts (noAnswers prompts)],
        abortAuth "ssh login error: interactive authentication required".toList)
    | some password =>
      let plan := buildAuthPromptPlan prompts password
      if !plan.usedPassword then
        ([.prompts plan.answers],
          abortAuth (if plan.sawOtpPrompt then
              "ssh login error: unsupported authentication prompt (OTP/2FA required): ".toList ++
                plan.promptsSummary
            else "ssh login error: unsupported authentication prompt: ".toList ++ plan.promptsSummary))
      else
        let passwordPromptCount := passwordPromptCount + 1
        -- the answers of the plan are sent also where the server asked too often
        if passwordPromptCount > maxPasswordPrompts then
          ([.prompts plan.answers], abortAuth "ssh login error: password auth status: Denied".toList)
        else
          match sent with
          | .error err => ([.prompts plan.answers], abortAuth ("ssh login error: ".toList ++ err))
          | .ok () => ([.prompts plan.answers], .authenticating passwordPromptCount)
  -- both return without `abort_auth`
  | .event (.hostVerificationFailed failed) _ _ =>
    ([], .dropped ("host verification failed: ".toList ++ failed))
  | .event (.error err) _ _ => ([], .dropped ("ssh login error: ".toList ++ err))
  | .event .authenticated _ _ => ([], .authenticated)

/-- A turn of the thread of `spawn_session_event_drain`, which waits without a timeout. -/
def drainTurn (err : Text) : Received → List Answer × AuthPhase
  | .closed => ([], .dropped err)
  | .event (.hostVerify _) _ _ => ([.trust false], .draining err)
  | .event (.authenticate prompts) _ _ => ([.prompts (noAnswers prompts)], .draining err)
  | _ => ([], .draining err)

/-- The turn of who has the receiver; nothing is received where it was returned or dropped. -/
def turn (authPassword : Option Text) : AuthPhase → Received → Option (List Answer × AuthPhase)
  | .authenticating passwordPromptCount, r => some (authTurn authPassword passwordPromptCount r)
  | .draining err, r => some (drainTurn err r)
  | .authenticated, _ | .dropped _, _ => none

/-- The log of a session that authenticates. -/
def authLog (authPassword : Option Text) (received : List Received) :
    List (Entry AuthPhase Received Answer) :=
  entries (turn authPassword) (.authenticating 0) received

/-! ## What the loop is for -/

/-- The prompts of an event. -/
def promptsOf : Received → List AuthenticationPrompt
  | .event (.authenticate prompts) _ _ => prompts
  | _ => []

/-- The saved password is among the answers; an empty one is no password. -/
def usesPassword (authPassword : Option Text) (answers : List Answer) : Bool :=
  authPassword.any fun password => password ≠ [] && answers.any fun
    | .prompts given => given.contains password
    | .trust _ => false

/-- How many entries of a log use the saved password. -/
def passwordUses (authPassword : Option Text) (log : List (Entry AuthPhase Received Answer)) : ℕ :=
  log.countP fun e => usesPassword authPassword e.outputs

/-- Each question is answered once, with one answer for each prompt, and nothing else is answered. -/
def AnsweredOnce : Received → List Answer → Prop
  | .event (.hostVerify _) _ _, answers => ∃ trustHost, answers = [.trust trustHost]
  | .event (.authenticate prompts) _ _, answers =>
    ∃ given, answers = [.prompts given] ∧ given.length = prompts.length
  | _, answers => answers = []

/-- The saved password stands where a prompt asks for a password. -/
def PasswordWhereAsked (authPassword : Option Text) (r : Received) (answers : List Answer) : Prop :=
  ∀ given : List Text, .prompts given ∈ answers →
    ∀ password, authPassword = some password → password ≠ [] → ∀ i : ℕ, given[i]? = some password →
      ∃ p : AuthenticationPrompt, (promptsOf r)[i]? = some p ∧ promptIsPasswordLike p.prompt = true

/-- The guarantees of the loop and its drain, for the log of a session. -/
structure SecureAuth (authPassword : Option Text) (log : List (Entry AuthPhase Received Answer)) :
    Prop where
  password_only : ∀ e ∈ log, PasswordWhereAsked authPassword e.input e.outputs
  password_count : passwordUses authPassword log ≤ maxPasswordPrompts
  answered_once : ∀ e ∈ log, AnsweredOnce e.input e.outputs
  declined : log.Pairwise fun e e' => .trust false ∈ e.outputs →
    .trust true ∉ e'.outputs ∧ usesPassword authPassword e'.outputs = false
  drained : ∀ e ∈ log, ∀ count err, e.before = .authenticating count → e.after = .dropped err →
    e.input = .closed

/-- An `Authenticate` event. -/
def isAuthenticate : Received → Bool
  | .event (.authenticate _) _ _ => true
  | _ => false

/-- One of the prompts asks for a password. -/
def asksPassword (r : Received) : Bool :=
  (promptsOf r).any fun p => promptIsPasswordLike p.prompt

/-- What the loop goes on from, as long as it was not asked too often: a banner, a host that the user
trusts, and prompts for a password whose answers can be sent. -/
def Continues (authPassword : Option Text) : Received → Prop
  | .event (.banner _) _ _ => True
  | .event (.hostVerify _) decision _ => decision = some true
  | r@(.event (.authenticate _) _ sent) =>
    authPassword.isSome = true ∧ asksPassword r = true ∧ sent = .ok ()
  | _ => False

/-- What the loop goes through to its next event, where it was asked `count` times before. -/
def Running (authPassword : Option Text) (count : ℕ) (before : List Received) : Prop :=
  (∀ r ∈ before, Continues authPassword r) ∧
    count + before.countP isAuthenticate ≤ maxPasswordPrompts

/-- The loop returns without the drain. -/
def EndsUndrained : Received → Prop
  | .event (.hostVerificationFailed _) _ _ | .event (.error _) _ _ => True
  | _ => False

/-- What the loop should not meet: an error of the session thread, or one more prompt for a password
that is saved after the last one that may be answered. -/
def Slips (authPassword : Option Text) (count : ℕ) (r : Received) : Prop :=
  EndsUndrained r ∨
    count = maxPasswordPrompts ∧ asksPassword r = true ∧ authPassword.any (· ≠ []) = true

/-- The loop never meets it as long as it runs. -/
def NeverSlips (authPassword : Option Text) (count : ℕ) (received : List Received) : Prop :=
  ∀ before r after, received = before ++ r :: after → Running authPassword count before →
    ¬ Slips authPassword (count + before.countP isAuthenticate) r

variable {authPassword : Option Text} {count : ℕ} {r : Received} {err : Text}
  {received : List Received}
  {prompts : List AuthenticationPrompt} {outputs : List Answer} {phase phase' : AuthPhase}

/-! ## The answers of a turn -/

@[simp] theorem usesPassword_nil : usesPassword authPassword [] = false := by
  cases authPassword <;> simp [usesPassword]

@[simp] theorem usesPassword_trust (trustHost : Bool) :
    usesPassword authPassword [.trust trustHost] = false := by
  cases authPassword <;> simp [usesPassword]

@[simp] theorem usesPassword_noAnswers :
    usesPassword authPassword [.prompts (noAnswers prompts)] = false := by
  rcases authPassword with _ | password
  · rfl
  · by_cases hempty : password = []
    · simp [usesPassword, hempty]
    · have hnot : password ∉ noAnswers prompts := by
        rintro hmem
        obtain ⟨-, -, rfl⟩ := List.mem_map.mp hmem
        exact hempty rfl
      simp [usesPassword, hnot]

/-- What the loop answers, however often it was asked before. -/
def answersTo (authPassword : Option Text) : Received → List Answer
  | .event (.hostVerify _) decision _ => [.trust (decision.getD false)]
  | .event (.authenticate prompts) _ _ =>
    [.prompts (prompts.map fun p =>
      if promptIsPasswordLike p.prompt then authPassword.getD [] else [])]
  | _ => []

theorem authTurn_fst : (authTurn authPassword count r).1 = answersTo authPassword r := by
  rcases r with ⟨_ | _ | prompts | _ | _ | _, decision, sent⟩ | _ | _
  case event.authenticate =>
    rcases authPassword with _ | password
    · simp [authTurn, answersTo, noAnswers]
    · dsimp only [authTurn]
      -- the plan is sent whether the loop goes on or not
      split
      · rfl
      · split
        · rfl
        · split <;> rfl
  all_goals rfl

theorem usesPassword_answersTo :
    usesPassword authPassword (answersTo authPassword r) =
      (asksPassword r && authPassword.any (· ≠ [])) := by
  rcases r with ⟨_ | _ | prompts | _ | _ | _, decision, sent⟩ | _ | _
  case event.authenticate =>
    rcases authPassword with _ | password
    · simp [usesPassword]
    · by_cases hempty : password = []
      · simp [usesPassword, hempty]
      · rw [Bool.eq_iff_iff]
        simp [usesPassword, answersTo, hempty, asksPassword, promptsOf]
  all_goals simp [answersTo, asksPassword, promptsOf]

theorem answeredOnce_answersTo : AnsweredOnce r (answersTo authPassword r) := by
  rcases r with ⟨_ | _ | prompts | _ | _ | _, decision, sent⟩ | _ | _
  case event.hostVerify => exact ⟨_, rfl⟩
  case event.authenticate => exact ⟨_, rfl, List.length_map _⟩
  all_goals rfl

theorem answeredOnce_drainTurn : AnsweredOnce r (drainTurn err r).1 := by
  rcases r with ⟨_ | _ | prompts | _ | _ | _, decision, sent⟩ | _ | _
  case event.hostVerify => exact ⟨_, rfl⟩
  case event.authenticate => exact ⟨_, rfl, List.length_map _⟩
  all_goals rfl

theorem passwordWhereAsked_answersTo :
    PasswordWhereAsked authPassword r (answersTo authPassword r) := by
  intro given hgiven password hsaved hpassword i hi
  rcases r with ⟨_ | _ | prompts | _ | _ | _, decision, sent⟩ | _ | _
  case event.authenticate =>
    obtain rfl := Answer.prompts.inj (List.mem_singleton.mp hgiven)
    rw [List.getElem?_map, Option.map_eq_some_iff] at hi
    obtain ⟨p, hp, heq⟩ := hi
    refine ⟨p, hp, ?_⟩
    -- an answer that is not empty is the password of a prompt that asks for one
    by_contra hnot
    rw [if_neg hnot] at heq
    exact hpassword heq.symm
  all_goals simp [answersTo] at hgiven

theorem passwordWhereAsked_of_unused (h : usesPassword authPassword outputs = false) :
    PasswordWhereAsked authPassword r outputs := by
  intro given hgiven password hsaved hpassword i hi
  subst hsaved
  simp only [usesPassword, Option.any_some, Bool.and_eq_false_iff] at h
  rcases h with hempty | hno
  · simp [hpassword] at hempty
  · have := List.any_eq_false.mp hno _ hgiven
    exact absurd (List.mem_of_getElem? hi) (by simpa using this)

/-! ## Where a turn leads to -/

/-- Where prompts lead to. -/
theorem authTurn_authenticate_phase (decision : Option Bool) (sent : Except Text Unit) :
    (authTurn authPassword count (.event (.authenticate prompts) decision sent)).2 =
        .authenticating (count + 1) ∧ Continues authPassword
          (.event (.authenticate prompts) decision sent) ∧ count + 1 ≤ maxPasswordPrompts ∨
      ∃ err, (authTurn authPassword count (.event (.authenticate prompts) decision sent)).2 =
        .draining err := by
  rcases authPassword with _ | password
  · exact .inr ⟨_, rfl⟩
  · dsimp only [authTurn]
    split
    · exact .inr ⟨_, rfl⟩
    · next hused =>
      split
      · exact .inr ⟨_, rfl⟩
      · next hcount =>
        rcases sent with err | _
        · exact .inr ⟨_, rfl⟩
        · refine .inl ⟨rfl, ⟨rfl, ?_, rfl⟩, by omega⟩
          simpa [buildAuthPromptPlan, asksPassword, promptsOf] using hused

/-- Where the loop goes on to after an event. -/
theorem authTurn_running (hgoes : Continues authPassword r)
    (hcount : count + (if isAuthenticate r then 1 else 0) ≤ maxPasswordPrompts) :
    (authTurn authPassword count r).2 =
      .authenticating (count + if isAuthenticate r then 1 else 0) := by
  rcases r with ⟨_ | _ | prompts | _ | _ | _, decision, sent⟩ | _ | _
  · rfl
  · obtain rfl : decision = some true := hgoes
    rfl
  · obtain ⟨hsome, hasks, rfl⟩ := hgoes
    obtain ⟨password, rfl⟩ := Option.isSome_iff_exists.mp hsome
    have hused : (buildAuthPromptPlan prompts password).usedPassword = true := hasks
    simp only [isAuthenticate, if_true] at hcount ⊢
    simp only [authTurn, hused, Bool.not_true, Bool.false_eq_true, if_false]
    rw [if_neg (by omega)]
  all_goals exact hgoes.elim

/-- Nothing else lets the loop go on. -/
theorem running_of_authTurn {count' : ℕ}
    (h : (authTurn authPassword count r).2 = .authenticating count')
    (hcount : count ≤ maxPasswordPrompts) :
    Continues authPassword r ∧ count + (if isAuthenticate r then 1 else 0) ≤ maxPasswordPrompts := by
  rcases r with ⟨_ | _ | prompts | _ | _ | _, decision, sent⟩ | _ | _
  case event.banner => exact ⟨trivial, hcount⟩
  case event.hostVerify =>
    rcases decision with _ | _ | _
    case some.true => exact ⟨rfl, hcount⟩
    all_goals cases h
  case event.authenticate =>
    obtain ⟨-, hgoes, hnext⟩ | ⟨err, hdrain⟩ :=
      @authTurn_authenticate_phase authPassword count prompts decision sent
    · exact ⟨hgoes, hnext⟩
    · rw [hdrain] at h
      cases h
  all_goals cases h

/-- The loop drops the receiver where the channel is closed and where it returns without the drain. -/
theorem dropped_authTurn_iff :
    (∃ err, (authTurn authPassword count r).2 = .dropped err) ↔ r = .closed ∨ EndsUndrained r := by
  rcases r with ⟨_ | _ | prompts | _ | _ | _, decision, sent⟩ | _ | _
  case event.hostVerify =>
    rcases decision with _ | _ | _ <;> simp [authTurn, abortAuth, EndsUndrained]
  case event.authenticate =>
    obtain ⟨hnext, -⟩ | ⟨err, hdrain⟩ :=
      @authTurn_authenticate_phase authPassword count prompts decision sent
    · simp [hnext, EndsUndrained]
    · simp [hdrain, EndsUndrained]
  all_goals simp [authTurn, abortAuth, EndsUndrained]

/-- A host that is not trusted leaves the receiver to the drain. -/
theorem authTurn_declines (h : .trust false ∈ (authTurn authPassword count r).1) :
    ∃ err, (authTurn authPassword count r).2 = .draining err := by
  rw [authTurn_fst] at h
  rcases r with ⟨_ | _ | prompts | _ | _ | _, decision, sent⟩ | _ | _
  case event.hostVerify =>
    rcases decision with _ | _ | _
    case some.true => simp [answersTo] at h
    all_goals exact ⟨_, rfl⟩
  all_goals simp [answersTo] at h

/-- The loop has ended. -/
def Ended (phase : AuthPhase) : Prop := ∀ count, phase ≠ .authenticating count

/-- What a turn can be. -/
theorem turn_cases (h : turn authPassword phase r = some (outputs, phase')) :
    (∃ count, phase = .authenticating count ∧ authTurn authPassword count r = (outputs, phase')) ∨
      ∃ err, phase = .draining err ∧ drainTurn err r = (outputs, phase') := by
  rcases phase with count | _ | err | err
  · exact .inl ⟨count, rfl, Option.some.inj h⟩
  · cases h
  · exact .inr ⟨err, rfl, Option.some.inj h⟩
  · cases h

/-- After the loop nothing is accepted and no password is sent. -/
theorem turn_ended (hended : Ended phase) (h : turn authPassword phase r = some (outputs, phase')) :
    (.trust true ∉ outputs ∧ usesPassword authPassword outputs = false) ∧ Ended phase' := by
  obtain ⟨count, rfl, -⟩ | ⟨err, rfl, hdrain⟩ := turn_cases h
  · exact absurd rfl (hended count)
  · rcases r with ⟨_ | _ | prompts | _ | _ | _, decision, sent⟩ | _ | _ <;>
      obtain ⟨rfl, rfl⟩ := Prod.mk.inj hdrain <;>
      simp [Ended]

/-! ## The run -/

theorem neverSlips_cons (hcount : count ≤ maxPasswordPrompts) :
    NeverSlips authPassword count (r :: received) ↔
      ¬ Slips authPassword count r ∧
        (Continues authPassword r →
          count + (if isAuthenticate r then 1 else 0) ≤ maxPasswordPrompts →
            NeverSlips authPassword (count + if isAuthenticate r then 1 else 0) received) := by
  have hrunning (before : List Received) : Running authPassword count (r :: before) ↔
      Continues authPassword r ∧
        Running authPassword (count + if isAuthenticate r then 1 else 0) before := by
    simp only [Running, List.forall_mem_cons, List.countP_cons, and_assoc]
    rw [show count + (before.countP isAuthenticate + if isAuthenticate r then 1 else 0) =
      count + (if isAuthenticate r then 1 else 0) + before.countP isAuthenticate by omega]
  constructor
  · -- the first event is met with nothing before it, every other one with the first one before it
    intro h
    refine ⟨h [] r received rfl ⟨List.forall_mem_nil _, hcount⟩, ?_⟩
    intro hgoes _ before r' after hsplit hrun
    have hlater := h (r :: before) r' after (by rw [hsplit, List.cons_append])
      ((hrunning before).mpr ⟨hgoes, hrun⟩)
    rwa [List.countP_cons, Nat.add_comm (before.countP _), ← Nat.add_assoc] at hlater
  · rintro ⟨hfirst, hrest⟩ (_ | ⟨r', before⟩) r'' after hsplit hrun
    · obtain ⟨rfl, rfl⟩ := List.cons.inj hsplit
      exact hfirst
    · obtain ⟨rfl, rfl⟩ := List.cons.inj hsplit
      obtain ⟨hgoes, hrun⟩ := (hrunning before).mp hrun
      rw [List.countP_cons, Nat.add_comm (before.countP _), ← Nat.add_assoc]
      exact hrest hgoes (le_trans (Nat.le_add_right _ _) hrun.2) before r'' after rfl hrun

/-- The entry drops the receiver of the loop before the channel is closed. -/
def DropsReceiver (e : Entry AuthPhase Received Answer) : Prop :=
  (∃ count, e.before = .authenticating count) ∧ (∃ err, e.after = .dropped err) ∧ e.input ≠ .closed

theorem dropsReceiver_iff :
    DropsReceiver ⟨.authenticating count, r, outputs, (authTurn authPassword count r).2⟩ ↔
      EndsUndrained r := by
  have hclosed : EndsUndrained r → r ≠ .closed := by
    rintro h rfl
    exact h
  constructor
  · rintro ⟨-, hdropped, hopen⟩
    exact (dropped_authTurn_iff.mp hdropped).resolve_left hopen
  · intro h
    exact ⟨⟨count, rfl⟩, dropped_authTurn_iff.mpr (.inr h), hclosed h⟩

/-- What the loop goes on from asks for a password exactly where it is an `Authenticate` event. -/
theorem asksPassword_of_continues (hgoes : Continues authPassword r) :
    asksPassword r = isAuthenticate r := by
  rcases r with ⟨_ | _ | prompts | _ | _ | _, decision, sent⟩ | _ | _
  case event.authenticate => exact hgoes.2.1
  all_goals rfl

theorem not_endsUndrained_of_continues (hgoes : Continues authPassword r) : ¬ EndsUndrained r := by
  rcases r with ⟨_ | _ | prompts | _ | _ | _, decision, sent⟩ | _ | _
  case event.hostVerificationFailed | event.error => exact hgoes.elim
  all_goals exact not_false

/-- The loop does not slip where it goes on. -/
theorem not_slips_of_continues (hgoes : Continues authPassword r)
    (hnext : count + (if isAuthenticate r then 1 else 0) ≤ maxPasswordPrompts) :
    ¬ Slips authPassword count r := by
  rintro (hends | ⟨rfl, hasked, -⟩)
  · exact not_endsUndrained_of_continues hgoes hends
  · rw [if_pos (asksPassword_of_continues hgoes ▸ hasked)] at hnext
    omega

/-- Without a saved password no answer is one. -/
theorem passwordUses_of_unsaved (hsaved : authPassword.any (· ≠ []) = false)
    (log : List (Entry AuthPhase Received Answer)) : passwordUses authPassword log = 0 := by
  rw [passwordUses, List.countP_eq_zero]
  intro e _
  rcases authPassword with _ | password
  · simp [usesPassword]
  · simp only [Option.any_some, decide_eq_false_iff_not] at hsaved
    simp [usesPassword, hsaved]

/-- What the password may still be used for after an event that the loop goes on from. -/
theorem uses_le_iff_of_continues (hgoes : Continues authPassword r)
    (hnext : count + (if isAuthenticate r then 1 else 0) ≤ maxPasswordPrompts)
    (log : List (Entry AuthPhase Received Answer)) :
    passwordUses authPassword log +
          (if (asksPassword r && authPassword.any (· ≠ [])) = true then 1 else 0) ≤
        maxPasswordPrompts - count ↔
      passwordUses authPassword log ≤
        maxPasswordPrompts - (count + if isAuthenticate r then 1 else 0) := by
  rcases hsaved : authPassword.any (· ≠ []) with _ | _
  · simp [passwordUses_of_unsaved hsaved]
  · rw [asksPassword_of_continues hgoes, Bool.and_true]
    omega

/-- The one use that an event asks for is one too many at the bound. -/
theorem use_le_iff (hcount : count ≤ maxPasswordPrompts) :
    (if (asksPassword r && authPassword.any (· ≠ [])) = true then 1 else 0) ≤
        maxPasswordPrompts - count ↔
      ¬ (count = maxPasswordPrompts ∧ asksPassword r = true ∧
        authPassword.any (· ≠ []) = true) := by
  rw [← Bool.and_eq_true]
  split
  · next hused =>
    simp only [hused, and_true]
    omega
  · next hunused =>
    simp only [hunused, Bool.false_eq_true, and_false, not_false_iff, iff_true]
    omega

/-- After the loop no entry uses the password, and none drops the receiver of the loop. -/
theorem entries_ended (hended : Ended phase) (received : List Received) :
    passwordUses authPassword (entries (turn authPassword) phase received) = 0 ∧
      ∀ e ∈ entries (turn authPassword) phase received, ¬ DropsReceiver e := by
  have hentry : ∀ e ∈ entries (turn authPassword) phase received,
      usesPassword authPassword e.outputs = false ∧ Ended e.before := by
    refine forall_mem_entries ?_ hended received
    intro phase r outputs phase' hbefore hturn
    obtain ⟨⟨-, hunused⟩, hafter⟩ := turn_ended hbefore hturn
    exact ⟨⟨hunused, hbefore⟩, hafter⟩
  constructor
  · rw [passwordUses, List.countP_eq_zero]
    intro e he
    simp [(hentry e he).1]
  · rintro e he ⟨⟨count, hbefore⟩, -⟩
    exact (hentry e he).2 count hbefore

theorem entries_authenticating :
    entries (turn authPassword) (.authenticating count) (r :: received) =
      ⟨.authenticating count, r, answersTo authPassword r, (authTurn authPassword count r).2⟩ ::
        entries (turn authPassword) (authTurn authPassword count r).2 received := by
  apply entries_cons_of_some
  rw [← authTurn_fst]
  rfl

/-- The log of the loop has at most the allowed uses of the password, and no dropped receiver, exactly
where the loop never slips. -/
theorem entries_bounded_iff (hcount : count ≤ maxPasswordPrompts) :
    (passwordUses authPassword (entries (turn authPassword) (.authenticating count) received) ≤
          maxPasswordPrompts - count ∧
        ∀ e ∈ entries (turn authPassword) (.authenticating count) received, ¬ DropsReceiver e) ↔
      NeverSlips authPassword count received := by
  induction received generalizing count with
  | nil => simp [NeverSlips, passwordUses]
  | cons r received ih =>
    rw [neverSlips_cons hcount, entries_authenticating, passwordUses, List.countP_cons,
      List.forall_mem_cons, dropsReceiver_iff, usesPassword_answersTo, ← passwordUses]
    by_cases hgoes : Continues authPassword r ∧
        count + (if isAuthenticate r then 1 else 0) ≤ maxPasswordPrompts
    · -- the loop goes on with the count that the event leaves
      obtain ⟨hcont, hnext⟩ := hgoes
      rw [authTurn_running hcont hnext, uses_le_iff_of_continues hcont hnext]
      constructor
      · rintro ⟨huses, -, hnone⟩
        exact ⟨not_slips_of_continues hcont hnext, fun _ _ => (ih hnext).mp ⟨huses, hnone⟩⟩
      · rintro ⟨-, hrest⟩
        obtain ⟨huses, hnone⟩ := (ih hnext).mpr (hrest hcont hnext)
        exact ⟨huses, not_endsUndrained_of_continues hcont, hnone⟩
    · -- the loop ends, and what follows neither uses the password nor drops its receiver
      have hended : Ended (authTurn authPassword count r).2 :=
        fun count' hnext => hgoes (running_of_authTurn hnext hcount)
      obtain ⟨hzero, hnone⟩ := @entries_ended authPassword _ hended received
      rw [hzero, Nat.zero_add, use_le_iff hcount, Slips, not_or]
      constructor
      · rintro ⟨huses, hends, -⟩
        exact ⟨⟨hends, huses⟩, fun hcont hnext => absurd ⟨hcont, hnext⟩ hgoes⟩
      · rintro ⟨⟨hends, huses⟩, -⟩
        exact ⟨huses, hends, hnone⟩

/-- Each entry answers its questions, and the password stands where it is asked for. -/
theorem authLog_answers : ∀ e ∈ authLog authPassword received,
    AnsweredOnce e.input e.outputs ∧ PasswordWhereAsked authPassword e.input e.outputs := by
  refine forall_mem_entries (I := fun _ => True) (fun phase r outputs phase' _ hturn => ?_) trivial _
  obtain ⟨count, rfl, hauth⟩ | ⟨err, rfl, hdrain⟩ := turn_cases hturn
  · -- the loop answers from the plan
    obtain rfl : answersTo authPassword r = outputs := by rw [← authTurn_fst, hauth]
    exact ⟨⟨answeredOnce_answersTo, passwordWhereAsked_answersTo⟩, trivial⟩
  · -- the drain has no password to send
    have hended : Ended (.draining err) := fun count hphase => AuthPhase.noConfusion hphase
    have hunused := (turn_ended hended hturn).1.2
    obtain rfl : (drainTurn err r).1 = outputs := by rw [hdrain]
    exact ⟨⟨answeredOnce_drainTurn, passwordWhereAsked_of_unused hunused⟩, trivial⟩

/-- After a host was declined nothing is accepted, and the password is not sent. -/
theorem authLog_declined : (authLog authPassword received).Pairwise fun e e' =>
    .trust false ∈ e.outputs →
      .trust true ∉ e'.outputs ∧ usesPassword authPassword e'.outputs = false := by
  refine pairwise_entries (I := Ended) (fun phase r outputs phase' hturn hdeclined => ?_)
    (fun phase r outputs phase' hended hturn => turn_ended hended hturn) _ _
  obtain ⟨count, rfl, hauth⟩ | ⟨err, rfl, -⟩ := turn_cases hturn
  · obtain ⟨err, hphase⟩ := @authTurn_declines authPassword count r (by rwa [hauth])
    rw [hauth] at hphase
    subst hphase
    exact fun count' hnext => AuthPhase.noConfusion hnext
  · have hended : Ended (.draining err) := fun count hphase => AuthPhase.noConfusion hphase
    exact (turn_ended hended hturn).2

/-- A session that authenticates is as it should be exactly where its loop never receives an error of
the session thread and is never asked for a saved password once more than it may be. -/
theorem secureAuth_iff (authPassword : Option Text) (received : List Received) :
    SecureAuth authPassword (authLog authPassword received) ↔ NeverSlips authPassword 0 received := by
  have hbounded := @entries_bounded_iff authPassword 0 received (Nat.zero_le _)
  constructor
  · intro h
    refine hbounded.mp ⟨h.password_count, ?_⟩
    rintro e he ⟨⟨count, hbefore⟩, ⟨err, hafter⟩, hopen⟩
    exact hopen (h.drained e he count err hbefore hafter)
  · intro h
    obtain ⟨huses, hnone⟩ := hbounded.mpr h
    refine ⟨fun e he => (authLog_answers e he).2, huses, fun e he => (authLog_answers e he).1,
      authLog_declined, ?_⟩
    · intro e he count err hbefore hafter
      by_contra hopen
      exact hnone e he ⟨⟨count, hbefore⟩, ⟨err, hafter⟩, hopen⟩

/-- Four events that each ask for a password. -/
theorem not_secureAuth_fourPrompts :
    ¬ SecureAuth (some "secret".toList) (authLog (some "secret".toList) (List.replicate 4
      (.event (.authenticate [⟨"Password: ".toList, false⟩]) none (.ok ())))) := by
  intro h
  exact absurd h.password_count (by decide)

end Termua.Ssh
