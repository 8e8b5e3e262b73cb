import Overlay.Proofs.Supervisor.Modes
import Overlay.Proofs.Supervisor.Serving

/-!
# The accounts of serving

Serving counts its sessions, and among them those whose image has returned and those that have
failed.  Every session falls into one of four classes (`tally`), and the figures are kept as
numbers of these classes, session by session (`Judged.exists_last`).  Only the session in which the
host leaves is not counted.

What a session counts as is told by what its board has answered: a session has run at most one
image, and counts as launched when the run has answered with a status (`Launched.answered`).  So the
figures at the end balance with the runs on record and with the ends of the sessions
(`accounts_of_serving`).
-/

set_option autoImplicit false

namespace Overlay

variable {σ : Type}

/-! ## What a board has answered -/

/-- What a board answers to runs in a row, and what it is like afterwards.  It is brought back to
rest after each of them. -/
def Board.replay (board : Board σ) : σ → List Call → List (Except Fault Int32) × σ
  | state, [] => ([], state)
  | state, call :: calls =>
      let ran := board.execute call.context ⟨call.memory, state⟩
      let later := board.replay (board.neutralise ran.2.board) calls
      (ran.1 :: later.1, later.2)

theorem Board.replay_append (board : Board σ) (state : σ) (first second : List Call) :
    board.replay state (first ++ second) =
      ((board.replay state first).1 ++ (board.replay (board.replay state first).2 second).1,
        (board.replay (board.replay state first).2 second).2) := by
  induction first generalizing state with
  | nil => rfl
  | cons call calls ih => simp only [List.cons_append, replay, ih]

namespace Supervisor

/-! ## What sessions count as -/

/-- The faults by which a host is known to have left. -/
inductive Departed : Fault → Prop where
  | closed (phase : Phase) : Departed (.disconnected phase)
  | broken (text : String) : Departed (.io ⟨.brokenPipe, text⟩)
  | reset (text : String) : Departed (.io ⟨.connectionReset, text⟩)
  | ended (text : String) : Departed (.io ⟨.unexpectedEof, text⟩)

theorem isDisconnect_iff {fault : Fault} : fault.isDisconnect = true ↔ Departed fault := by
  constructor
  · intro disconnect
    cases fault with
    | disconnected phase => exact .closed phase
    | io error =>
        obtain ⟨kind, text⟩ := error
        cases kind with
        | brokenPipe => exact .broken text
        | connectionReset => exact .reset text
        | unexpectedEof => exact .ended text
        | _ => cases disconnect
    | _ => cases disconnect
  · rintro (_ | _ | _ | _) <;> rfl

instance : DecidablePred Departed := fun _ => decidable_of_iff _ isDisconnect_iff

/-- Faults of a single session, after which another one may be held. -/
inductive Passing : Fault → Prop where
  | timeout (phase : Phase) : Passing (.timeout phase)
  | checksumMismatch (expected actual : UInt32) : Passing (.checksumMismatch expected actual)
  | sizeRejected (declared capacity : UInt32) : Passing (.sizeRejected declared capacity)
  | outOfBounds (address : UInt32) (length : Nat) : Passing (.outOfBounds address length)
  | executor (text : String) : Passing (.executor text)

/-- What a session counts as. -/
inductive Tally where
  /-- Its image was run and has returned. -/
  | launched
  /-- Its image was too large, or was not run. -/
  | refused
  /-- It has come to a fault. -/
  | failed
  /-- The host has left. -/
  | departed
  deriving DecidableEq

/-- What a session counts as that has come to a given end. -/
def tally : Except Fault Exit → Tally
  | .ok (.returned _) => .launched
  | .ok (.oversized _ _) => .refused
  | .ok (.rejected _) => .refused
  | .error fault => if Departed fault then .departed else .failed

/-- How many sessions count as one thing. -/
def amount (kind : Tally) (results : List (Except Fault Exit)) : Nat :=
  (results.map tally).count kind

section Amounts

variable {kind : Tally} {result : Except Fault Exit} {results : List (Except Fault Exit)}

theorem amount_append (kind : Tally) (first second : List (Except Fault Exit)) :
    amount kind (first ++ second) = amount kind first + amount kind second := by
  rw [amount, List.map_append, List.count_append]
  rfl

theorem amount_singleton (kind : Tally) (result : Except Fault Exit) :
    amount kind [result] = if tally result = kind then 1 else 0 := by
  rw [amount, List.map_singleton, List.count_singleton]
  simp only [beq_iff_eq]

theorem amount_eq_zero (none : ∀ result ∈ results, tally result ≠ kind) :
    amount kind results = 0 := by
  refine List.count_eq_zero.mpr fun among => ?_
  obtain ⟨result, among, same⟩ := List.mem_map.mp among
  exact none result among same

theorem length_eq_amounts (results : List (Except Fault Exit)) :
    results.length = amount .launched results + amount .failed results +
      amount .refused results + amount .departed results := by
  induction results with
  | nil => rfl
  | cons result results ih =>
      rw [← List.singleton_append, List.length_append, List.length_singleton, ih]
      simp only [amount_append, amount_singleton]
      cases tally result <;> simp <;> omega

/-- A session counts as launched exactly when it has ended in a return. -/
theorem tally_eq_launched_iff :
    tally result = .launched ↔ ∃ status, result = .ok (.returned status) := by
  rcases result with fault | (status | _ | _)
  · rw [tally]
    split <;> simp
  all_goals simp [tally]

theorem tally_error (fault : Fault) :
    tally (.error fault) = if Departed fault then .departed else .failed := rfl

end Amounts

/-! ## How serving judges -/

/-- The figures after more sessions, all of them counted. -/
def Stats.plus (stats : Stats) (results : List (Except Fault Exit)) : Stats where
  sessions := stats.sessions + results.length
  launched := stats.launched + amount .launched results
  failed := stats.failed + amount .failed results

/-- The ends of sessions after which there may be another one. -/
structure Continues (result : Except Fault Exit) : Prop where
  stays : tally result ≠ .departed
  linked : ∀ error, result ≠ .error (.io error)

/-- How serving ends with a session.  A host that has left comes before everything else. -/
inductive Closes (once : Bool) (stats : Stats) : Except Fault Exit → Except Fault Stats → Prop where
  | departed {fault : Fault} (departed : Departed fault) :
      Closes once stats (.error fault) (.ok stats)
  | single (exit : Exit) (asked : once = true) :
      Closes once stats (.ok exit) (.ok (stats.plus [.ok exit]))
  | failed {fault : Fault} (stays : ¬ Departed fault)
      (final : once = true ∨ ∃ error, fault = .io error) :
      Closes once stats (.error fault) (.error fault)

/-- A judgement: to end, or to go on with the session counted, unless only one is asked for. -/
inductive Decides (once : Bool) (stats : Stats) (result : Except Fault Exit) : Verdict → Prop where
  | stop {ended : Except Fault Stats} (closes : Closes once stats result ended) :
      Decides once stats result (.stop ended)
  | again (more : once = false) (continues : Continues result) :
      Decides once stats result (.again (stats.plus [result]))

section Judgements

variable {once : Bool} {stats : Stats} {results : List (Except Fault Exit)}
variable {ended : Except Fault Stats}

theorem Stats.plus_append (stats : Stats) (first second : List (Except Fault Exit)) :
    stats.plus (first ++ second) = (stats.plus first).plus second := by
  simp only [Stats.plus, amount_append, List.length_append, Nat.add_assoc]

theorem plus_exit (stats : Stats) (exit : Exit) :
    stats.plus [.ok exit] =
      { stats with
        sessions := stats.sessions + 1
        launched := if exit.isReturned then stats.launched + 1 else stats.launched } := by
  cases exit <;> rfl

theorem plus_fault (stats : Stats) {fault : Fault} (stays : ¬ Departed fault) :
    stats.plus [.error fault] =
      { stats with sessions := stats.sessions + 1, failed := stats.failed + 1 } := by
  simp only [Stats.plus, amount_singleton, tally_error, if_neg stays]
  rfl

/-- **How serving judges the end of a session.** -/
theorem judge_decides (once : Bool) (stats : Stats) (result : Except Fault Exit) :
    Decides once stats result (stats.judge once result) := by
  unfold Stats.judge
  cases result with
  | ok exit =>
      dsimp only
      rw [← plus_exit]
      cases once with
      | true => exact .stop (.single exit rfl)
      | false =>
          refine .again rfl ⟨?_, nofun⟩
          cases exit <;> nofun
  | error fault =>
      dsimp only
      by_cases left : Departed fault
      · rw [if_pos (isDisconnect_iff.mpr left)]
        exact .stop (.departed left)
      rw [if_neg (mt isDisconnect_iff.mp left), ← plus_fault stats left]
      have counts : tally (.error fault) ≠ .departed := by
        rw [tally_error, if_neg left]
        nofun
      cases once with
      | true => exact .stop (.failed left (.inl rfl))
      | false =>
          by_cases broken : ∃ error, fault = .io error
          · obtain ⟨error, rfl⟩ := broken
            exact .stop (.failed left (.inr ⟨error, rfl⟩))
          · have continues : Continues (.error fault) :=
              ⟨counts, fun error same => broken ⟨error, Except.error.inj same⟩⟩
            cases fault with
            | io error => exact absurd ⟨error, rfl⟩ broken
            | _ => exact .again rfl continues

/-- **Every session but the last is counted**, and the figures are then judged with the last. -/
theorem Judged.exists_last (judged : Judged once stats results ended) :
    ∃ earlier last, results = earlier ++ [last] ∧ (earlier ≠ [] → once = false) ∧
      (∀ result ∈ earlier, Continues result) ∧ Closes once (stats.plus earlier) last ended := by
  induction judged with
  | @stop stats result _ stops =>
      have decides := judge_decides once stats result
      rw [stops] at decides
      cases decides with
      | stop closes => exact ⟨[], result, rfl, fun any => absurd rfl any, nofun, closes⟩
  | @again stats _ result _ _ goesOn _ ih =>
      have decides := judge_decides once stats result
      rw [goesOn] at decides
      cases decides with
      | again more continues =>
          obtain ⟨earlier, last, rfl, _, continue', closes⟩ := ih
          rw [← Stats.plus_append] at closes
          exact ⟨result :: earlier, last, rfl, fun _ => more,
            List.forall_mem_cons.mpr ⟨continues, continue'⟩, closes⟩

end Judgements

/-! ## The balance at the end -/

/-- Figures that say what the sessions have ended in and what the board has answered to their
runs. -/
structure Balance (results : List (Except Fault Exit)) (answers : List (Except Fault Int32))
    (stats : Stats) : Prop where
  /-- As many sessions are launched as runs were answered with a status. -/
  launched : stats.launched = answers.countP Except.isOk
  failed : stats.failed = amount .failed results
  /-- The counted sessions are launched, have failed or were refused. -/
  sessions : stats.sessions = stats.launched + stats.failed + amount .refused results

/-- How serving ends, given what its sessions have ended in and what the board has answered to
their runs. -/
structure Accounts (once : Bool) (results : List (Except Fault Exit))
    (answers : List (Except Fault Int32)) (ended : Except Fault Stats) : Prop where
  /-- There are figures when the host has left, and then the last session is not counted, or when
  the only session that was asked for has come to an exit. -/
  closed : ∀ stats, ended = .ok stats →
    (∃ fault, results.getLast? = some (.error fault) ∧ Departed fault ∧
      stats.sessions + 1 = results.length) ∨
    once = true ∧ (∃ exit, results = [.ok exit]) ∧ stats.sessions = 1
  balanced : ∀ stats, ended = .ok stats → Balance results answers stats
  /-- Serving fails with the fault of its last session, which is one of the link or the only one
  that was asked for. -/
  failed : ∀ fault, ended = .error fault → results.getLast? = some (.error fault) ∧
    ¬ Departed fault ∧ ((∃ error, fault = .io error) ∨ once = true)
  /-- It does not fail when the host has left. -/
  left : ∀ fault, results.getLast? = some (.error fault) → Departed fault →
    ∃ stats, ended = .ok stats
  /-- If one session is asked for, one is held. -/
  single : once = true → results.length = 1
  /-- If not, no session with a fault of its own is the last. -/
  passing : once = false → ∀ fault, Passing fault → results.getLast? ≠ some (.error fault)

section Balances

variable {once : Bool} {results : List (Except Fault Exit)} {ended : Except Fault Stats}
variable {answers : List (Except Fault Int32)} {fault : Fault}

theorem balance_of_counted (stay : amount .departed results = 0)
    (answered : answers.countP Except.isOk = amount .launched results) :
    Balance results answers (Stats.plus {} results) where
  launched := (Nat.zero_add _).trans answered.symm
  failed := Nat.zero_add _
  sessions := by
    simp only [Stats.plus, Nat.zero_add]
    rw [length_eq_amounts, stay, Nat.add_zero]

theorem balance_of_departed (left : Departed fault) (stay : amount .departed results = 0)
    (answered : answers.countP Except.isOk = amount .launched (results ++ [.error fault])) :
    Balance (results ++ [.error fault]) answers (Stats.plus {} results) := by
  have counted (kind : Tally) (other : kind ≠ .departed) :
      amount kind (results ++ [.error fault]) = amount kind results := by
    rw [amount_append, amount_singleton, tally_error, if_pos left, if_neg other.symm, Nat.add_zero]
  rw [counted .launched nofun] at answered
  obtain ⟨launched, failed, sessions⟩ := balance_of_counted stay answered
  refine ⟨launched, ?_, ?_⟩
  · rw [counted .failed nofun]
    exact failed
  · rw [counted .refused nofun]
    exact sessions

/-- A fault of a single session is neither that of a host that has left nor one of the link. -/
theorem Passing.not_final (passing : Passing fault) :
    ¬ Departed fault ∧ ∀ error, fault ≠ .io error := by
  cases passing <;> exact ⟨nofun, nofun⟩

/-- **The accounts of judged sessions balance.** -/
theorem Judged.accounts (judged : Judged once {} results ended)
    (answered : answers.countP Except.isOk = amount .launched results) :
    Accounts once results answers ended := by
  obtain ⟨earlier, last, rfl, more, continues, closes⟩ := judged.exists_last
  have stay : amount .departed earlier = 0 :=
    amount_eq_zero fun result among => (continues result among).stays
  have alone (asked : once = true) : earlier = [] := by
    by_contra any
    exact Bool.noConfusion (asked.symm.trans (more any))
  have final : (earlier ++ [last]).getLast? = some last := List.getLast?_concat
  constructor
  case closed =>
    rintro stats rfl
    cases closes with
    | departed left =>
        refine .inl ⟨_, final, left, ?_⟩
        rw [List.length_append, List.length_singleton, Stats.plus, Nat.zero_add]
    | single exit asked =>
        obtain rfl := alone asked
        exact .inr ⟨asked, ⟨exit, rfl⟩, rfl⟩
  case balanced =>
    rintro stats rfl
    cases closes with
    | departed left => exact balance_of_departed left stay answered
    | single exit asked =>
        obtain rfl := alone asked
        have counts : amount .departed [.ok exit] = 0 := by cases exit <;> rfl
        exact balance_of_counted counts answered
  case failed =>
    rintro fault rfl
    cases closes with
    | failed stays cause => exact ⟨final, stays, cause.symm⟩
  case left =>
    intro fault same departed
    obtain rfl := Option.some.inj (final.symm.trans same)
    cases closes with
    | departed _ => exact ⟨_, rfl⟩
    | failed stays _ => exact absurd departed stays
  case single =>
    intro asked
    rw [alone asked]
    rfl
  case passing =>
    intro asked fault passing same
    obtain rfl := Option.some.inj (final.symm.trans same)
    obtain ⟨stays, linked⟩ := passing.not_final
    cases closes with
    | departed left => exact stays left
    | failed _ cause =>
        obtain single | ⟨error, same⟩ := cause
        · exact Bool.noConfusion (asked.symm.trans single)
        · exact linked error same

end Balances

/-- Only a session that has ended in a return counts as launched. -/
theorem amount_launched_of_unrun {result : Except Fault Exit}
    (unrun : ∀ status, result ≠ .ok (.returned status)) : amount .launched [result] = 0 := by
  rw [amount_singleton, if_neg]
  rw [tally_eq_launched_iff]
  rintro ⟨status, returned⟩
  exact unrun status returned

end Supervisor

/-! ## Sessions with a record of their runs -/

namespace Loader

/-- A load whose runs are on record counts as launched exactly when the board has answered its run
with a status. -/
theorem Launched.answered {loader : Loader σ} {board : σ} {record more : List Call}
    {ready : Context → DeviceMemory → Prop} {result : Except Fault Exit} {device : Device σ}
    (launched : Launched loader.recording (board, record) ready
      (result, device.recording (record ++ more))) :
    (loader.board.replay board more).2 = device.board ∧
      (loader.board.replay board more).1.countP Except.isOk =
        Supervisor.amount .launched [result] := by
  generalize whole : (result, device.recording (record ++ more)) = ended at launched
  cases launched with
  | not same unrun =>
      cases whole
      obtain ⟨rfl, none⟩ := Prod.mk.inj same
      obtain rfl := List.append_right_eq_self.mp none
      exact ⟨rfl, (Supervisor.amount_launched_of_unrun unrun).symm⟩
  | @once context memory _ =>
      obtain ⟨rfl, left⟩ := Prod.mk.inj whole
      obtain ⟨same, recorded⟩ := Prod.mk.inj (congrArg Device.board left)
      obtain rfl := List.append_cancel_left recorded
      refine ⟨same.symm, ?_⟩
      change [(loader.board.execute context ⟨memory, board⟩).1].countP Except.isOk =
        Supervisor.amount .launched
          [(loader.board.execute context ⟨memory, board⟩).1.map Exit.returned]
      cases (loader.board.execute context ⟨memory, board⟩).1 with
      | ok status => rfl
      | error fault =>
          refine (Supervisor.amount_launched_of_unrun fun status returned => ?_).symm
          cases returned

end Loader

namespace Supervisor

section Records

variable {supervisor next last : Supervisor σ} {link after : ScriptedLink}
variable {result : Except Fault Exit} {results : List (Except Fault Exit)}

theorem launched_of_concluded {outcome : Except Fault Received} {received : Buffer}
    (concluded : supervisor.conclude outcome received = (result, next)) :
    Loader.Launched supervisor.loader supervisor.device.board (fun _ _ => True)
      (result, next.device) := by
  have board := board_land supervisor received
  obtain ⟨_, loader, _⟩ := setup_eq_iff.mp (setup_land supervisor received)
  cases outcome with
  | error fault =>
      cases concluded
      exact .not board nofun
  | ok image =>
      rw [← eq_of_settle _ concluded, launch, loader, ← board]
      split
      · exact Loader.runInPlace_launched_of fun _ _ _ _ _ _ _ _ => trivial
      · exact Loader.loadBytes_launched_of fun _ _ =>
          Loader.loadAndRun_launched_of fun _ _ _ _ _ _ => trivial

/-- **A session with a record goes as it does without**, and the board has answered its runs as
the session counts. -/
theorem comesTo_recording (record : List Call)
    (session : supervisor.sessionParty.ComesTo (supervisor.receive link.clock) link (result, next)
      after) :
    ∃ more,
      (supervisor.recording record).sessionParty.ComesTo
        ((supervisor.recording record).receive link.clock) link
        (result, next.recording (record ++ more)) after ∧
      (supervisor.loader.board.replay supervisor.device.board more).2 = next.device.board ∧
      (supervisor.loader.board.replay supervisor.device.board more).1.countP Except.isOk =
        amount .launched [result] := by
  obtain ⟨events, final, outcome, course, stage, concluded⟩ := comesTo_session_iff.mp session
  obtain ⟨more, same⟩ := conclude_recording supervisor.engaged record outcome final.destination
  rw [concluded] at same
  have launched := launched_of_concluded same
  obtain ⟨_, loader, _⟩ := setup_eq_iff.mp (setup_engaged supervisor)
  refine ⟨more, comesTo_session_iff.mpr ⟨events, final, outcome, course, stage, ?_⟩, ?_⟩
  · rw [engaged_recording]
    exact same
  · rw [← loader, ← device_engaged]
    exact launched.answered

theorem loader_of_session
    (session : supervisor.sessionParty.ComesTo (supervisor.receive link.clock) link (result, next)
      after) : next.loader = supervisor.loader := by
  obtain ⟨_, _, outcome, _, _, concluded⟩ := comesTo_session_iff.mp session
  have kept := congrArg (fun ended => setup ended.2) concluded
  dsimp only at kept
  rw [setup_conclude, setup_engaged] at kept
  exact (setup_eq_iff.mp kept.symm).2.1

/-- **So do sessions in a row.** -/
theorem Sessions.recording (sessions : Sessions results supervisor link last after)
    (record : List Call) :
    ∃ more,
      Sessions results (supervisor.recording record) link (last.recording (record ++ more)) after ∧
      (supervisor.loader.board.replay supervisor.device.board more).2 = last.device.board ∧
      (supervisor.loader.board.replay supervisor.device.board more).1.countP Except.isOk =
        amount .launched results := by
  induction sessions generalizing record with
  | none supervisor link =>
      refine ⟨[], ?_, rfl, rfl⟩
      rw [List.append_nil]
      exact .none _ _
  | @held result results supervisor between last link middle after first _ ih =>
      obtain ⟨more, session, board, answered⟩ := comesTo_recording record first
      obtain ⟨later, sessions, board', answered'⟩ := ih (record ++ more)
      rw [loader_of_session first, ← board] at board' answered'
      rw [List.append_assoc] at sessions
      refine ⟨more ++ later, .held session sessions, ?_, ?_⟩
      · rw [Board.replay_append]
        exact board'
      · rw [Board.replay_append, List.countP_append, answered, answered', ← amount_append]
        rfl

end Records

/-! ## Whole runs -/

/-- **The accounts of serving balance.**  A supervisor with any loader and any board that serves
over a script until it ends has held sessions in a row.  It serves in the same way with a record of
its runs, and the board that answers the runs on record is left as serving leaves it.  By what the
sessions have ended in, and by these answers, the figures are right.  Each session is counted but
for one in which the host has left, the launched ones are those whose run was answered with a
status, and only a host that has left, a link that has failed or the only session that was asked
for ends the serving. -/
theorem accounts_of_serving {once : Bool} {supervisor last : Supervisor σ}
    {link after : ScriptedLink} {fuel : Nat} {ended : Except Fault Stats}
    (returns : (servingParty once).runScript fuel (Serving.next {} supervisor link.clock) link =
      some ((ended, last), after)) :
    ∃ results calls answers,
      Sessions results supervisor link last after ∧ Judged once {} results ended ∧
      (servingParty once).ComesTo (Serving.next {} (supervisor.recording []) link.clock) link
        (ended, last.recording calls) after ∧
      supervisor.loader.board.replay supervisor.device.board calls =
        (answers, last.device.board) ∧
      Accounts once results answers ended := by
  obtain ⟨results, sessions, judged⟩ := sessions_of_runScript returns
  obtain ⟨calls, recorded, board, answered⟩ := sessions.recording []
  exact ⟨results, calls, _, sessions, judged, comesTo_of_sessions recorded judged,
    Prod.ext rfl board, judged.accounts answered⟩

/-! ## A single byte -/

/-- A script in which the byte 65 arrives, and the host leaves. -/
def leavingScript : ScriptedLink := { singleByteScript with silent := false }

/-- In the first session the byte is run, and in the second one the host has left. -/
theorem sessions_of_leaving :
    ∃ last after, Sessions [.ok (.returned 0), .error (.disconnected .ready)] small leavingScript
      last after := by
  let ran := (small.conclude (.ok ⟨1, checksum [65]⟩) (Buffer.store small.staging 0 [65])).2
  let middle : ScriptedLink :=
    { leavingScript with
      arrivals := []
      accepted := [(0, 0xF5 :: Word.encode (checksum [65])), (0, [0xC1]), (0, [0xC0])] }
  let after : ScriptedLink := { middle with accepted := (0, [0xC0]) :: middle.accepted }
  have received : (Receiver.party small.receiver).runScript 8 (small.receive 0) leavingScript =
      some ((.ok ⟨1, checksum [65]⟩, Buffer.store small.staging 0 [65]), middle) := rfl
  have left : (Receiver.party ran.receiver).runScript 8 (ran.receive 0) middle =
      some ((.error (.disconnected .ready), ran.staging), after) := rfl
  have first : small.sessionParty.ComesTo (small.receive 0) leavingScript
      (.ok (.returned 0), ran) middle :=
    Party.comesTo_concluding_iff.mpr ⟨_, .of_runScript received, rfl⟩
  have second : ran.sessionParty.ComesTo (ran.receive 0) middle
      (.error (.disconnected .ready), ran.engaged.land ran.staging) after :=
    Party.comesTo_concluding_iff.mpr ⟨_, .of_runScript left, rfl⟩
  exact ⟨_, _, .held first (.held second (.none _ _))⟩

/-- The session in which the byte is run is counted, and the other one is not. -/
theorem accounts_of_leaving :
    ∃ fuel last after,
      (servingParty false).runScript fuel (Serving.next {} small leavingScript.clock)
          leavingScript = some ((.ok ⟨1, 1, 0⟩, last), after) ∧
        ∃ results calls answers,
          Sessions results small leavingScript last after ∧
          Judged false {} results (.ok ⟨1, 1, 0⟩) ∧
          (servingParty false).ComesTo (Serving.next {} (small.recording []) leavingScript.clock)
            leavingScript (.ok ⟨1, 1, 0⟩, last.recording calls) after ∧
          small.loader.board.replay small.device.board calls = (answers, last.device.board) ∧
          Accounts false results answers (.ok ⟨1, 1, 0⟩) := by
  obtain ⟨last, after, sessions⟩ := sessions_of_leaving
  have judged : Judged false {} [.ok (.returned 0), .error (.disconnected .ready)]
      (.ok ⟨1, 1, 0⟩) := .again rfl (.stop rfl)
  obtain ⟨moves, runs⟩ := comesTo_of_sessions sessions judged
  have returns := runs (moves + 1) (Nat.lt_succ_self moves)
  exact ⟨moves + 1, last, after, returns, accounts_of_serving returns⟩

end Supervisor
end Overlay
