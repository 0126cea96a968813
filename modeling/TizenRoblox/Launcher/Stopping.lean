/-
# Sober after a signal

A launcher that has been told to stop should not start Sober any more. Its traps do not
see to that: `cleanup` ends what the launcher has started, and then the script goes on
where it was, and the flag that SIGUSR1 sets is looked at in one place. So a signal keeps
Sober from being started only if Sober has been started already, or if it is SIGUSR1 and
the loop has still to look at its flag: such signals are timely, and where all are
timely Sober is not started after any of them (`no_start_after_timely`). That a Sober
which has ended is not started again is owed to `set -e`, under which a crash ends the
script.

A launcher that is interrupted while it starts the input mapper cleans up and starts
Sober all the same (`start_after_signal`).
-/

import TizenRoblox.Launcher.Signals
import TizenRoblox.Launcher.Reaching

namespace TizenRoblox.Launcher

open TizenRoblox.Foundation TizenRoblox.Posix TizenRoblox.Shell TizenRoblox.Shell.Command

/-- The trap runs when Sober has been started, or it is the one that sets the flag and
the script is not between the test of the flag and the start of Sober. -/
def Timely (moment : Moment State Signal) : Prop :=
  0 < moment.state.soberStarts ∨ moment.signal = .usr1 ∧ moment.line ≠ 374

instance (moment : Moment State Signal) : Decidable (Timely moment) :=
  inferInstanceAs (Decidable (_ ∨ _))

/-- Sober has not been started since any of the traps ran. -/
def NoStartAfter (live : Live State Signal) : Prop :=
  ∀ moment ∈ live.handled, moment.state.soberStarts = live.state.soberStarts

instance (live : Live State Signal) : Decidable (NoStartAfter live) :=
  inferInstanceAs (Decidable (∀ moment ∈ live.handled, _))

/-! ## The stages of a run

What holds, unless a signal has come that was not timely. -/

/-- Before there is a flag: no signal has come. -/
structure Early (live : Live State Signal) : Prop where
  starts : live.state.soberStarts = 0
  untrapped : .usr1 ∉ live.caught
  handled : live.handled = []

/-- Before the flag is looked at: if a signal has come, the flag is set. -/
structure Before (live : Live State Signal) : Prop where
  starts : live.state.soberStarts = 0
  since : NoStartAfter live
  stopped : live.handled = [] ∨ live.state.stopRestart = 1

/-- Before Sober is started. -/
structure Ready (live : Live State Signal) : Prop where
  starts : live.state.soberStarts = 0
  line : live.line = 374
  handled : live.handled = []

/-- Once Sober may have been started, it has not been started since a trap ran. -/
structure Settled (invariant : State → Prop) (live : Live State Signal) : Prop where
  since : NoStartAfter live
  state : invariant live.state

theorem settled_of_nil {invariant : State → Prop} {live : Live State Signal}
    (hhandled : live.handled = []) (hstate : invariant live.state) : Settled invariant live :=
  ⟨by simp [NoStartAfter, hhandled], hstate⟩

theorem Early.settled {live : Live State Signal} (hlive : Early live) :
    Settled (fun _ => True) live :=
  settled_of_nil hlive.handled trivial

/-- Where the script is and what is to come make no difference. -/
theorem Before.of_eq {live next : Live State Signal} (hlive : Before live)
    (hstate : next.state = live.state) (hhandled : next.handled = live.handled) : Before next := by
  obtain ⟨hstarts, hsince, hstopped⟩ := hlive
  refine ⟨hstate ▸ hstarts, ?_, ?_⟩
  · simpa [NoStartAfter, hstate, hhandled] using hsince
  · simpa [hstate, hhandled] using hstopped

theorem Before.settled {live : Live State Signal} (hlive : Before live) :
    Settled (fun _ => True) live :=
  ⟨hlive.since, trivial⟩

/-- Or else a signal has come that was not timely. -/
def Unless (property : Live State Signal → Prop) (live : Live State Signal) : Prop :=
  Missed Timely live ∨ property live

theorem Unless.imp {property other : Live State Signal → Prop} {live : Live State Signal}
    (hlive : Unless property live) (himp : property live → other live) : Unless other live :=
  Or.imp_right himp hlive

section Commands

variable {line : ℕ} {signals : List Signal} {run : Command State} {strict : Bool}
  {live : Live State Signal}

theorem Mild.soberStarts (hrun : Mild signals run) (strict : Bool) (state : State) :
    (run strict state).state.soberStarts = state.soberStarts := by
  have haloof : Aloof (Started state.soberStarts) :=
    ⟨inert_started _, fun _ _ _ _ _ hstate => hstate⟩
  exact hrun.preserves _ haloof strict state rfl

theorem Mild.keeping_settled {invariant : State → Prop} (haloof : Aloof invariant)
    (hrun : Mild signals run) : Keeping (Settled invariant) line signals run := by
  intro strict live hlive
  refine ⟨fun moment hmoment => ?_, hrun.preserves _ haloof strict _ hlive.state⟩
  exact (hlive.since moment hmoment).trans (hrun.soberStarts strict live.state).symm

theorem Mild.keeping_early (hrun : Mild signals run) : Keeping Early line signals run := by
  intro strict live hlive
  refine ⟨(hrun.soberStarts strict live.state).trans hlive.starts, ?_, hlive.handled⟩
  rw [hrun.untrapped]
  exact hlive.untrapped

theorem keeping_unless {property : Live State Signal → Prop}
    (hrun : Keeping property line signals run) : Keeping (Unless property) line signals run :=
  fun strict live hlive => Or.imp_right (hrun strict live) hlive

end Commands

/-! ## What survives the traps -/

section Survival

variable (world : World) (depth : ℕ)

theorem calm_settled (invariant : State → Prop) : Calm (Settled invariant) where
  arrive _ _ hlive := ⟨hlive.since, hlive.state⟩
  enter live signal hlive _ := by
    refine ⟨fun moment hmoment => ?_, hlive.state⟩
    rcases List.mem_append.mp hmoment with hold | hnew
    · exact hlive.since moment hold
    · rw [List.mem_singleton.mp hnew]
      rfl
  resume _ _ hlive := ⟨hlive.since, hlive.state⟩

/-- Traps do not start Sober. -/
theorem survives_settled {invariant : State → Prop} (haloof : Aloof invariant) :
    Survives (lookFor (handler world) depth) (Unless (Settled invariant)) :=
  (survives_lookFor (calm_settled invariant) (fun signal => (mild_handler signal).mono
    fun _ _ _ hrun => hrun.keeping_settled haloof) depth).missed_or

/-- Nor does any other part of the script. -/
theorem preserves_settled {invariant : State → Prop} (haloof : Aloof invariant) {text : Text}
    (htext : text.Each fun _ => Mild) :
    Preserves (Unless (Settled invariant)) (among world depth text) :=
  preserves_interrupted (survives_settled world depth haloof)
    (htext.mono fun _ _ _ hrun => keeping_unless (hrun.keeping_settled haloof))

theorem survives_early : Survives (lookFor (handler world) depth) (Unless Early) := by
  refine survives_of_unfit (fun live later hlive => ⟨hlive.starts, hlive.untrapped, hlive.handled⟩)
    (fun live signal hlive hcaught htimely => ?_) depth
  rcases htimely with hstarted | ⟨rfl, _⟩
  · exact absurd hlive.starts hstarted.ne'
  · exact hlive.untrapped hcaught

theorem survives_ready : Survives (lookFor (handler world) depth) (Unless Ready) := by
  refine survives_of_unfit (fun live later hlive => ⟨hlive.starts, hlive.line, hlive.handled⟩)
    (fun live signal hlive _ htimely => ?_) depth
  rcases htimely with hstarted | ⟨_, hline⟩
  · exact absurd hlive.starts hstarted.ne'
  · exact hline hlive.line

/-- The flag is set when the trap of SIGUSR1 has run. -/
theorem survives_before : Survives (lookFor (handler world) depth) (Unless Before) := by
  apply survives_of_handlers
  · exact fun live later hlive => Or.imp_right (fun h : Before live => h.of_eq rfl rfl) hlive
  intro depth hsurvives signal live hlive hcaught
  have hmissed : Missed Timely (live.enter signal) →
      Unless Before (among world depth (handler world signal) true (live.enter signal)).state :=
    fun hmissed => .inl (preserves_missed depth (handler world signal) true _ hmissed)
  have hresume {next : Live State Signal} (hnext : Unless Before next) :
      Unless Before (next.resume live.line) :=
    Or.imp_right (fun h : Before next => h.of_eq rfl rfl) hnext
  suffices hends : Unless Before
      (among world depth (handler world signal) true (live.enter signal)).state from
    ⟨hends, hresume hends⟩
  rcases hlive with hlive | hlive
  · exact hmissed (calm_missed.enter live signal hlive hcaught)
  · cases signal with
    | int => exact hmissed (missed_enter (by simp [Timely, hlive.starts]))
    | term => exact hmissed (missed_enter (by simp [Timely, hlive.starts]))
    | usr1 =>
        -- The trap is one command, and what follows it finds the flag set.
        have hensures : Ensures true (· = live.enter .usr1)
            (among world depth (handler world .usr1)) (.always (Unless Before)) := by
          refine ensures_act ?_ hsurvives fun _ => id
          rintro _ rfl
          have henter := (calm_settled fun _ => True).enter live .usr1 hlive.settled hcaught
          exact .inr ⟨hlive.starts, henter.since, .inr rfl⟩
        exact Outcome.meets_always.mp (hensures _ rfl)

end Survival

/-! ## The stages -/

section Stages

variable (world : World) (installDir : Bytes) (depth : ℕ)

/-- How Sober has ended. -/
theorem aloof_sober (property : ℕ → ℕ → Prop) :
    Aloof fun state => property state.soberStatus state.exitCode where
  record _ _ _ hstate := hstate
  setTree _ _ hstate := hstate
  setVariable _ _ _ _ hstate := hstate
  trap _ hstate := hstate
  counters _ _ _ _ _ hstate := hstate

theorem survives_final :
    Survives (lookFor (handler world) depth) (Unless (Settled fun _ => True)) :=
  survives_settled world depth (aloof_sober fun _ _ => True)

/-- What is to hold in the end. -/
abbrev Final : Live State Signal → Prop := Unless (Settled fun _ => True)

/-- What has been missed stays missed. -/
theorem ensures_missed {strict : Bool} (text : Text) :
    Ensures strict (Missed Timely) (among world depth text)
      ⟨Missed Timely, Missed Timely, Final, Final⟩ :=
  (Ensures.of_preserves (preserves_missed depth text)).mono (fun _ => id) (fun _ => id)
    (fun _ => id) (fun _ => .inl) (fun _ => .inl)

theorem ensures_trap :
    Ensures true (fun live => live.state.soberStarts = 0 ∧ live.caught = [] ∧ live.handled = [])
      (among world depth (.trap 341 [.int, .term] installTrap))
      ⟨Unless Early, Unless Early, Final, Final⟩ := by
  refine ensures_act (fun live ⟨hstarts, hcaught, hhandled⟩ => .inr ⟨hstarts, ?_, hhandled⟩)
    (survives_early world depth) fun live hlive => hlive.imp Early.settled
  simp [Live.after, hcaught]

/-- What does not start Sober. -/
theorem ensures_settled {invariant : State → Prop} (haloof : Aloof invariant) {text : Text}
    (htext : text.Each fun _ => Mild) :
    Ensures true (Unless (Settled invariant)) (among world depth text)
      ⟨Unless (Settled invariant), Unless (Settled invariant), Final, Final⟩ := by
  have hfinal (live : Live State Signal) (hlive : Unless (Settled invariant) live) : Final live :=
    hlive.imp fun hsettled => ⟨hsettled.since, trivial⟩
  exact (Ensures.of_preserves (preserves_settled world depth haloof htext)).mono (fun _ => id)
    (fun _ => id) (fun _ => id) hfinal hfinal

/-- What comes before there is a flag. -/
theorem ensures_early {text : Text} (htext : text.Each fun _ => Mild) :
    Ensures true (Unless Early) (among world depth text)
      ⟨Unless Early, Unless Early, Final, Final⟩ := by
  have hpreserves : Preserves (Unless Early) (among world depth text) :=
    preserves_interrupted (survives_early world depth)
      (htext.mono fun _ _ _ hrun => keeping_unless hrun.keeping_early)
  have hfinal (live : Live State Signal) (hlive : Unless Early live) : Final live :=
    hlive.imp Early.settled
  exact (Ensures.of_preserves hpreserves).mono (fun _ => id) (fun _ => id) (fun _ => id) hfinal
    hfinal

theorem ensures_usr1 :
    Ensures true (Unless Early) (among world depth (.trap 372 [.usr1] .skip))
      ⟨Unless Before, Unless Before, Final, Final⟩ := by
  refine ensures_act (fun live hlive => Or.imp_right (fun hearly : Early live => ?_) hlive)
    (survives_before world depth) fun live hlive => hlive.imp Before.settled
  exact ⟨hearly.starts, hearly.settled.since, .inl hearly.handled⟩

/-- The loop is entered only if the flag is not set. -/
theorem ensures_flag :
    Ensures false (Unless Before)
      (among world depth (.command 374 (.test fun state => state.stopRestart = 0)))
      ⟨Unless Ready, Final, Final, Final⟩ := by
  refine ensures_test ?_ ?_ (survives_ready world depth) (survives_final world depth)
    (fun live hlive => hlive.imp fun hready => settled_of_nil hready.handled trivial)
    fun _ => id
  · intro live hlive hflag
    refine Or.imp_right (fun hbefore : Before live => ⟨hbefore.starts, rfl, ?_⟩) hlive
    rcases hbefore.stopped with hhandled | hstop
    · exact hhandled
    · simp [hstop] at hflag
  · exact fun live hlive _ => Or.imp_right
      (fun hbefore : Before live => ⟨hbefore.since, trivial⟩) hlive

/-- Under `set -e` the script goes on after Sober only if that has ended well. -/
theorem ensures_sober :
    Ensures true (Unless Ready) (among world depth (.command 375 (runSober (soberBin installDir))))
      ⟨Unless (Settled fun state => state.soberStatus = 0), Missed Timely, Final, Final⟩ := by
  have hgoal : Ensures true Ready
      (among world depth (.command 375 (runSober (soberBin installDir))))
      ⟨Unless (Settled fun state => state.soberStatus = 0), Missed Timely, Final, Final⟩ := by
    refine ensures_lift ?_
      (survives_settled world depth (aloof_sober fun status _ => status = 0))
      (survives_missed depth) (survives_final world depth)
      (fun live hlive => hlive.imp fun hended => ⟨hended.since, trivial⟩) fun _ => .inl
    intro live hready
    cases hruns : live.state.runs with
    | nil =>
        rw [runSober_of_nil _ true live.state hruns]
        exact .inr (settled_of_nil hready.handled trivial)
    | cons run rest =>
        rw [runSober_of_cons _ true live.state hruns]
        by_cases hcode : run.exitCode = 0
        · rw [if_neg (by simp [hcode]), hcode]
          exact .inr (settled_of_nil hready.handled hcode)
        · rw [if_pos ⟨rfl, hcode⟩]
          exact .inr (settled_of_nil hready.handled trivial)
  rintro live (hmissed | hready)
  · exact (ensures_missed world depth _ live hmissed).mono (fun _ => .inl) (fun _ => id)
      (fun _ => id) (fun _ => id)
  · exact hgoal live hready

theorem ensures_take :
    Ensures true (Unless (Settled fun state => state.soberStatus = 0))
      (among world depth (.command 376 takeExitCode))
      ⟨Unless (Settled fun state => state.exitCode = 0),
        Unless (Settled fun state => state.exitCode = 0), Final, Final⟩ :=
  ensures_act (fun _ hlive => Or.imp_right (fun hended => ⟨hended.since, hended.state⟩) hlive)
    (survives_settled world depth (aloof_sober fun _ code => code = 0))
    fun _ hlive => hlive.imp fun hended => ⟨hended.since, trivial⟩

/-- After a deliberate exit the loop is left. -/
theorem ensures_stop :
    Ensures true (Unless (Settled fun state => state.exitCode = 0))
      (among world depth (stopIfCleanText world)) ⟨Missed Timely, Missed Timely, Final, Final⟩ := by
  have hclean := survives_settled world depth (aloof_sober fun _ code => code = 0)
  have hfinal (live : Live State Signal)
      (hlive : Unless (Settled fun state => state.exitCode = 0) live) : Final live :=
    hlive.imp fun htaken => ⟨htaken.since, trivial⟩
  have hsame (live : Live State Signal)
      (hlive : Unless (Settled fun state => state.exitCode = 0) live) (line : ℕ) :
      Unless (Settled fun state => state.exitCode = 0) (live.after line [] live.state) :=
    Or.imp_right (fun htaken : Settled _ live => ⟨htaken.since, htaken.state⟩) hlive
  have htest : Ensures false (Unless (Settled fun state => state.exitCode = 0))
      (among world depth (.command 379 (.test fun state => state.exitCode = 0)))
      ⟨Unless (Settled fun state => state.exitCode = 0), Missed Timely, Final, Final⟩ := by
    refine ensures_test (fun live hlive _ => hsame live hlive 379) (fun live hlive hcode => ?_)
      hclean (survives_missed depth) hfinal fun _ => .inl
    rcases hlive with hmissed | htaken
    · exact hmissed
    · simp [htaken.state] at hcode
  have hskip (text : Text) : Ensures false (Missed Timely) (among world depth text)
      ⟨Unless (Settled fun state => state.exitCode = 0), Missed Timely, Final, Final⟩ :=
    (ensures_missed world depth text).mono (fun _ => id) (fun _ => .inl) (fun _ => id)
      (fun _ => id) (fun _ => id)
  have hsaid : (Program.command 380 (sayCode world (bytes "[launch] Sober exited cleanly (code ")
      (bytes ")")) : Text).Each fun _ => Mild := mild_said _
  have hsay := ensures_settled world depth (aloof_sober fun _ code => code = 0) hsaid
  have hbreak : Ensures true (Unless (Settled fun state => state.exitCode = 0))
      (among world depth (.command 381 (.brk 1))) ⟨Missed Timely, Missed Timely, Final, Final⟩ :=
    fun live hlive => hfinal _ (hsame live hlive 381)
  exact .ifElse (.orElse (.orElse htest (hskip _)) (hskip _)) (.seq hsay hbreak hbreak)
    (ensures_missed world depth .pass)

/-- A turn is the last one. -/
theorem ensures_turn :
    Ensures true (Unless Ready) (among world depth (recoveryTurnText world installDir))
      ⟨Unless Before, Unless Before, Final, Final⟩ := by
  have hrest : Ensures true (Missed Timely) (among world depth (.block [
      .command 384 (sayCode world (bytes "[launch] Sober crashed (code ") (bytes ")")),
      countCrashText, giveUpText world,
      .command 399 (say world fun state => restartLine state.restartCount),
      .command 400 pause])) ⟨Unless Before, Unless Before, Final, Final⟩ :=
    (ensures_missed world depth _).mono (fun _ => id) (fun _ => .inl) (fun _ => .inl)
      (fun _ => id) (fun _ => id)
  have hjudge : Ensures true (Unless (Settled fun state => state.exitCode = 0))
      (among world depth (judgeText world)) ⟨Unless Before, Unless Before, Final, Final⟩ :=
    .seq (ensures_stop world depth) hrest hrest
  have htaken : Ensures true (Unless (Settled fun state => state.soberStatus = 0))
      (among world depth (.seq (.command 376 takeExitCode) (judgeText world)))
      ⟨Unless Before, Unless Before, Final, Final⟩ :=
    .seq (ensures_take world depth) hjudge hjudge
  have hmissed : Ensures true (Missed Timely)
      (among world depth (.seq (.command 376 takeExitCode) (judgeText world)))
      ⟨Unless Before, Unless Before, Final, Final⟩ :=
    fun live hlive => htaken live (.inl hlive)
  exact .seq (ensures_sober world installDir depth) htaken hmissed

theorem ensures_loop :
    Ensures true (Unless Before) (among world depth (recoveryLoopText world installDir))
      (.always Final) := by
  intro live hlive
  have hfinal (live : Live State Signal) (hlive : Unless Before live) : Final live :=
    hlive.imp Before.settled
  exact Ensures.whileDo (ensures_flag world depth) (ensures_turn world installDir depth)
    (fun _ => id) (fun _ => id) hfinal live hlive

theorem ensures_trappedText :
    Ensures true (fun live => live.state.soberStarts = 0 ∧ live.caught = [] ∧ live.handled = [])
      (among world depth (trappedText world installDir)) (.always Final) := by
  have hloop := ensures_loop world installDir depth
  have husr1 := Ensures.seq (ensures_usr1 world depth) hloop hloop
  have hstart := Ensures.seq (ensures_early world depth (@mild_recoveryStartText world)) husr1 husr1
  have hannounce := Ensures.seq
    (ensures_early world depth (@mild_announceText world installDir)) hstart hstart
  have hmapper := Ensures.seq
    (ensures_early world depth (@mild_startInputMapperText world installDir)) hannounce hannounce
  exact .seq (ensures_trap world depth) hmapper hmapper

end Stages

/-! ## Runs -/

section Runs

variable (world : World)

theorem final_trappedRun (installDir : Bytes) {live : Live State Signal}
    (hstarts : live.state.soberStarts = 0) (hcaught : live.caught = [])
    (hhandled : live.handled = []) : Final (trappedRun world installDir live) := by
  have htext := Outcome.meets_always.mp
    (ensures_trappedText world installDir live.arriving.length live ⟨hstarts, hcaught, hhandled⟩)
  exact trappedRun_of htext fun next hnext =>
    preserves_settled world _ (aloof_sober fun _ _ => True) mild_cleanupText true next hnext

/-- Where every signal comes timely, Sober is not started after any of them. -/
theorem no_start_after_timely {state : State} (hfresh : state.trace = [])
    (arriving : List (List Signal))
    (htimely : ∀ moment ∈ (launchAmong world state arriving).handled, Timely moment) :
    NoStartAfter (launchAmong world state arriving) := by
  have hstarts : state.soberStarts = 0 := by simp [State.soberStarts, hfresh]
  have huntrapped := (inert_started 0).untrapped world (detectInstallDir world state)
    (fun _ _ hstate => hstate) true state hstarts
  unfold launchAmong at htimely ⊢
  split at htimely
  · next status next houtcome =>
      rw [houtcome] at huntrapped
      have hfinal : Final (trappedRun world (detectInstallDir world state)
        (uncaught arriving next)) := final_trappedRun world _ huntrapped rfl rfl
      rcases hfinal with ⟨moment, hmoment, hmissed⟩ | hsettled
      · exact absurd (htimely moment hmoment) hmissed
      · exact hsettled.since
  · exact (settled_of_nil rfl trivial : Settled (fun _ => True) _).since

/-- A TV with all libraries and the input mapper, on which Sober ends well. -/
def mapperTv : State := .initial
  ⟨installed ++ systemLibraries ++ [([bytes "tmp"], .dir),
    ([bytes "opt", bytes "tizenroblox", bytes "bin", bytes "input_mapper"], .file [])]⟩
  (fun _ => none) 0 [⟨0, 5⟩]

/-- Signals that arrive before the shell looks once more after so many times. -/
def arrivingAfter (looks : ℕ) (signals : List Signal) : List (List Signal) :=
  List.replicate looks [] ++ [signals]

/-- Signals that arrive while Sober runs. -/
theorem no_start_after_timely_mapperTv :
    NoStartAfter (launchAmong quietWorld mapperTv (arrivingAfter 17 [.usr1, .int])) :=
  no_start_after_timely quietWorld rfl _ (by decide +kernel)

/-- Sober is started after SIGINT in the pause for the input mapper, and after SIGUSR1
when the loop has just looked at its flag. -/
theorem start_after_signal :
    ¬ NoStartAfter (launchAmong quietWorld mapperTv (arrivingAfter 6 [.int])) ∧
      ¬ NoStartAfter (launchAmong quietWorld mapperTv (arrivingAfter 16 [.usr1])) := by
  decide +kernel

end Runs

end TizenRoblox.Launcher
