/-
# The limit on restarts

After a crash the loop counts it, in a window that starts anew with the first crash
that comes more than a minute after the start of the last window, and gives up when
the window holds too many. Read over a list of crash times, the counters alone decide
how many crashes are answered by a restart (`restarts_eq`), unless the log stops taking
lines: that ends the script sooner (`restarts_le`).

The loop never gives up on crashes that are spread out: the crash it gives up at and
the three before it lie within a minute (`giveUp_within_window`). It does not keep to
three restarts in every minute, since the windows are its own: a minute that starts
with a window sees at most three, any other one at most six
(`restarts_within_minute`).
-/

import TizenRoblox.Launcher.Recovery

namespace TizenRoblox.Launcher

open TizenRoblox.Foundation TizenRoblox.Shell TizenRoblox.Shell.Command

/-! ## The answers to crashes -/

section Answers

variable (world : World)

/-- The part of a turn that follows a crash. -/
def answerCrash : Command State := .block [
  countCrash,
  giveUp world,
  say world fun state => restartLine state.restartCount,
  pause]

theorem recoveryTurn_eq (soberBin : Bytes) :
    recoveryTurn world soberBin = .block [
      runSober soberBin,
      takeExitCode,
      stopIfClean world,
      sayCode world (bytes "[launch] Sober crashed (code ") (bytes ")"),
      answerCrash world] := by
  simp only [recoveryTurn, answerCrash, block]

/-- How many crashes at these times are answered by a restart before the loop is left. -/
def restarts (strict : Bool) : State → List ℤ → ℕ
  | _, [] => 0
  | state, now :: rest =>
    match answerCrash world strict { state with clock := now } with
    | .done _ next => restarts strict next rest + 1
    | _ => 0

/-- The crashes that are answered by a restart. -/
def answered (strict : Bool) (state : State) (crashes : List ℤ) : List ℤ :=
  crashes.take (restarts world strict state crashes)

/-- The window the loop starts with and the ones it is in after the crashes that are
answered, by their starts. -/
def windowStarts (strict : Bool) : State → List ℤ → List ℤ
  | state, [] => [state.windowStart]
  | state, now :: rest =>
    match answerCrash world strict { state with clock := now } with
    | .done _ next => state.windowStart :: windowStarts strict next rest
    | _ => [state.windowStart]

end Answers

namespace Counters

/-- How many crashes the counters let pass. -/
def restarts : Counters → List ℤ → ℕ
  | _, [] => 0
  | counters, now :: rest =>
    if maxRestarts < (counters.crash now).count then 0
    else restarts (counters.crash now) rest + 1

def answered (counters : Counters) (crashes : List ℤ) : List ℤ :=
  crashes.take (counters.restarts crashes)

def windowStarts : Counters → List ℤ → List ℤ
  | counters, [] => [counters.windowStart]
  | counters, now :: rest =>
    if maxRestarts < (counters.crash now).count then [counters.windowStart]
    else counters.windowStart :: windowStarts (counters.crash now) rest

end Counters

section Deciding

variable (world : World) (strict : Bool) (state : State)

/-- How a crash is answered: there were too many, the log does not take the line that
says so, or there is a restart. In each case it has been counted. -/
theorem answerCrash_cases (now : ℤ) :
    ∃ next : State, next.counters = state.counters.crash now ∧
      (maxRestarts < (state.counters.crash now).count ∧
          LeavesLoop (answerCrash world strict { state with clock := now }) next ∨
        ¬ maxRestarts < (state.counters.crash now).count ∧
          (answerCrash world strict { state with clock := now } = .exited 1 next ∧
              (∃ trace, world.logOk trace = false) ∨
            Passes (answerCrash world) strict { state with clock := now } next)) := by
  have hanswer : answerCrash world strict { state with clock := now } =
      seq (giveUp world) (seq (say world fun state => restartLine state.restartCount) pause)
        strict (crashed { state with clock := now }) :=
    block_cons_of_passes _ (by simp) ⟨0, countCrash_eq strict _⟩
  by_cases hcount : maxRestarts < (state.counters.crash now).count
  · obtain ⟨line, hgiveUp⟩ := giveUp_of_exceeded world strict (crashed { state with clock := now })
      hcount
    refine ⟨(crashed { state with clock := now }).say world line, rfl, .inl ⟨hcount, ?_⟩⟩
    rw [hanswer, seq]
    rcases hgiveUp with hbroken | hexited
    · exact .inl (by rw [hbroken])
    · exact .inr (by rw [hexited])
  · have hgoesOn := giveUp_of_not_exceeded world strict (crashed { state with clock := now }) hcount
    refine ⟨(crashed { state with clock := now }).say world
      (restartLine (crashed { state with clock := now }).restartCount), rfl, .inr ⟨hcount, ?_⟩⟩
    rw [Passes, hanswer, seq, hgoesOn]
    cases htaken : world.logOk (crashed { state with clock := now }).trace with
    | true => exact .inr ((passes_say _ (.inr htaken)).seq ⟨0, skip_eq strict _⟩)
    | false =>
        cases strict with
        | true => exact .inl ⟨seq_of_exited (say_refused _ htaken), _, htaken⟩
        | false => exact .inr ((passes_say _ (.inl rfl)).seq ⟨0, skip_eq false _⟩)

/-- Where the log takes every line, the count alone decides. -/
theorem answerCrash_of_taken (hlog : ∀ trace, world.logOk trace = true) (now : ℤ) :
    ∃ next : State, next.counters = state.counters.crash now ∧
      (maxRestarts < (state.counters.crash now).count ∧
          LeavesLoop (answerCrash world strict { state with clock := now }) next ∨
        ¬ maxRestarts < (state.counters.crash now).count ∧
          Passes (answerCrash world) strict { state with clock := now } next) := by
  obtain ⟨next, hcounters, hanswer⟩ := answerCrash_cases world strict state now
  refine ⟨next, hcounters, hanswer.imp_right fun hbelow => ⟨hbelow.1, ?_⟩⟩
  rcases hbelow.2 with ⟨-, trace, hrefused⟩ | hpasses
  · rw [hlog trace] at hrefused
    cases hrefused
  · exact hpasses

variable {strict state} {crashes : List ℤ}

/-- The counters allow every restart there is. -/
theorem restarts_le : restarts world strict state crashes ≤ state.counters.restarts crashes := by
  induction crashes generalizing state with
  | nil => exact le_refl 0
  | cons now rest ih =>
      obtain ⟨next, hcounters, hanswer⟩ := answerCrash_cases world strict state now
      rcases hanswer with ⟨-, hbroken | hexited⟩ | ⟨hcount, ⟨hexited, -⟩ | ⟨status, hdone⟩⟩
      · simp [restarts, hbroken]
      · simp [restarts, hexited]
      · simp [restarts, hexited]
      · rw [restarts, hdone, Counters.restarts, if_neg hcount, ← hcounters]
        exact Nat.succ_le_succ ih

/-- Where the log takes every line, the counters decide. -/
theorem restarts_eq (hlog : ∀ trace, world.logOk trace = true) (state : State)
    (crashes : List ℤ) :
    restarts world strict state crashes = state.counters.restarts crashes := by
  induction crashes generalizing state with
  | nil => rfl
  | cons now rest ih =>
      obtain ⟨next, hcounters, hanswer⟩ := answerCrash_of_taken world strict state hlog now
      rcases hanswer with ⟨hcount, hbroken | hexited⟩ | ⟨hcount, status, hdone⟩
      · simp [restarts, hbroken, Counters.restarts, hcount]
      · simp [restarts, hexited, Counters.restarts, hcount]
      · rw [restarts, hdone, Counters.restarts, if_neg hcount, ← hcounters]
        exact congrArg (· + 1) (ih next)

theorem answered_eq (hlog : ∀ trace, world.logOk trace = true) :
    answered world strict state crashes = state.counters.answered crashes := by
  rw [answered, restarts_eq world hlog, Counters.answered]

theorem windowStarts_eq (hlog : ∀ trace, world.logOk trace = true) (state : State)
    (crashes : List ℤ) :
    windowStarts world strict state crashes = state.counters.windowStarts crashes := by
  induction crashes generalizing state with
  | nil => rfl
  | cons now rest ih =>
      obtain ⟨next, hcounters, hanswer⟩ := answerCrash_of_taken world strict state hlog now
      rcases hanswer with ⟨hcount, hbroken | hexited⟩ | ⟨hcount, status, hdone⟩
      · rw [windowStarts, hbroken, Counters.windowStarts, if_pos hcount]
        rfl
      · rw [windowStarts, hexited, Counters.windowStarts, if_pos hcount]
        rfl
      · rw [windowStarts, hdone, Counters.windowStarts, if_neg hcount, ← hcounters]
        exact congrArg (state.windowStart :: ·) (ih next)

/-- The answers are the first of those that the counters allow. -/
theorem answered_sublist :
    (answered world strict state crashes).Sublist (state.counters.answered crashes) :=
  (List.take_prefix_take_left (restarts_le world)).sublist

/-- The windows are among those of the counters. -/
theorem windowStarts_subset :
    windowStarts world strict state crashes ⊆ state.counters.windowStarts crashes := by
  induction crashes generalizing state with
  | nil => exact List.Subset.refl _
  | cons now rest ih =>
      have hfirst : state.windowStart ∈ state.counters.windowStarts (now :: rest) := by
        rw [Counters.windowStarts]
        split
        · exact List.mem_singleton_self _
        · exact List.mem_cons_self
      obtain ⟨next, hcounters, hanswer⟩ := answerCrash_cases world strict state now
      rcases hanswer with ⟨-, hbroken | hexited⟩ | ⟨hcount, ⟨hexited, -⟩ | ⟨status, hdone⟩⟩
      · simpa [windowStarts, hbroken] using hfirst
      · simpa [windowStarts, hexited] using hfirst
      · simpa [windowStarts, hexited] using hfirst
      · rw [windowStarts, hdone, Counters.windowStarts, if_neg hcount, ← hcounters]
        exact List.cons_subset_cons _ ih

end Deciding

/-! ## When the loop gives up -/

section GivingUp

variable {counters : Counters} {older recent crashes : List ℤ}

/-- The crashes that the counters count are the most recent ones, and they lie in the
window. -/
structure Counts (counters : Counters) (recent : List ℤ) : Prop where
  length : counters.count = recent.length
  bounded : counters.count ≤ maxRestarts
  inside : ∀ crash ∈ recent, counters.windowStart ≤ crash

/-- A crash is counted with the ones before it, or starts a window of its own. -/
theorem Counts.crash {now : ℤ} (hcounts : Counts counters recent)
    (hnow : counters.windowStart ≤ now)
    (hcount : (counters.crash now).count ≤ maxRestarts) :
    Counts (counters.crash now) (recent ++ [now]) ∨ Counts (counters.crash now) [now] := by
  unfold Counters.crash at hcount ⊢
  split at hcount
  · next hwindow =>
      rw [if_pos hwindow]
      exact Or.inr ⟨by simp, hcount, by simp⟩
  · next hwindow =>
      rw [if_neg hwindow]
      refine Or.inl ⟨by simp [hcounts.length], hcount, ?_⟩
      intro crash hcrash
      rcases List.mem_append.mp hcrash with hold | hnew
      · exact hcounts.inside crash hold
      · obtain rfl := List.mem_singleton.mp hnew
        exact hnow

end GivingUp

/-- A launcher whose first window starts at zero. -/
def launched : State := .initial ⟨[]⟩ (fun _ => none) 0 []

/-- Whether a crash lies in the closed interval as long as a window that starts at
the given time. -/
def inMinute (first crash : ℤ) : Bool := first ≤ crash ∧ crash ≤ first + restartWindow

namespace Counters

variable {counters : Counters} {now start first : ℤ} {rest crashes : List ℤ}

theorem answered_of_exceeded (hcount : maxRestarts < (counters.crash now).count) :
    counters.answered (now :: rest) = [] := by
  simp [answered, restarts, hcount]

theorem answered_of_not_exceeded (hcount : ¬ maxRestarts < (counters.crash now).count) :
    counters.answered (now :: rest) = now :: (counters.crash now).answered rest := by
  simp [answered, restarts, hcount]

theorem crash_of_over (hover : counters.windowStart + restartWindow < now) :
    counters.crash now = ⟨1, now⟩ := by
  rw [crash, if_pos (by omega)]

theorem crash_of_not_over (hover : ¬ counters.windowStart + restartWindow < now) :
    counters.crash now = ⟨counters.count + 1, counters.windowStart⟩ := by
  rw [crash, if_neg (by omega)]

theorem answered_subset : ∀ crash ∈ counters.answered crashes, crash ∈ crashes :=
  fun _ hcrash => List.mem_of_mem_take hcrash

/-- Nothing in the minute is answered after a crash beyond it. -/
theorem countP_answered_of_beyond (hsorted : crashes.Pairwise (· ≤ ·))
    (hbeyond : ∀ next ∈ crashes.head?, first + restartWindow < next) :
    (counters.answered crashes).countP (inMinute first) = 0 := by
  rw [List.countP_eq_zero]
  intro crash hcrash
  have hlate : first + restartWindow < crash := by
    cases crashes with
    | nil => exact absurd (answered_subset crash hcrash) (by simp)
    | cons next rest =>
        have hnext := hbeyond next rfl
        rcases List.mem_cons.mp (answered_subset crash hcrash) with rfl | hrest
        · exact hnext
        · exact lt_of_lt_of_le hnext ((List.pairwise_cons.mp hsorted).1 crash hrest)
  simp only [inMinute, decide_eq_true_eq, not_and, not_le]
  exact fun _ => hlate

/-- A minute that starts no later than the window sees no restarts but those the
window has left. -/
theorem countP_answered_of_le (hsorted : crashes.Pairwise (· ≤ ·))
    (hfirst : first ≤ counters.windowStart) (hbounded : counters.count ≤ maxRestarts) :
    ((counters.answered crashes).countP (inMinute first) : ℤ) ≤ maxRestarts - counters.count := by
  induction crashes generalizing counters with
  | nil => simpa [answered] using hbounded
  | cons now rest ih =>
      by_cases hover : counters.windowStart + restartWindow < now
      · have hnone := @countP_answered_of_beyond counters first (now :: rest) hsorted
          (by simp only [List.head?_cons, Option.mem_some_iff, forall_eq']; omega)
        omega
      · by_cases hcount : maxRestarts < (counters.crash now).count
        · rw [answered_of_exceeded hcount]
          simpa using hbounded
        · rw [answered_of_not_exceeded hcount, List.countP_cons]
          rw [crash_of_not_over hover] at hcount ⊢
          have hlater := @ih ⟨counters.count + 1, counters.windowStart⟩
            (List.pairwise_cons.mp hsorted).2 hfirst (by simpa using hcount)
          simp only at hlater
          split <;> omega

/-- Once the minute has begun it sees the restarts its window has left, and those of
one window more. -/
theorem countP_answered_of_begun (hsorted : crashes.Pairwise (· ≤ ·))
    (hbegun : ∀ crash ∈ crashes, first ≤ crash) (hbounded : counters.count ≤ maxRestarts) :
    ((counters.answered crashes).countP (inMinute first) : ℤ) ≤
      maxRestarts - counters.count + maxRestarts := by
  induction crashes generalizing counters with
  | nil => simp [answered, maxRestarts] at hbounded ⊢; omega
  | cons now rest ih =>
      have hrest := (List.pairwise_cons.mp hsorted).2
      by_cases hcount : maxRestarts < (counters.crash now).count
      · rw [answered_of_exceeded hcount]
        simp [maxRestarts] at hbounded ⊢
        omega
      · rw [answered_of_not_exceeded hcount, List.countP_cons]
        by_cases hover : counters.windowStart + restartWindow < now
        · -- the crash starts a window in the minute
          rw [crash_of_over hover] at hcount ⊢
          have hlater := @countP_answered_of_le ⟨1, now⟩ first rest hrest
            (hbegun now List.mem_cons_self) (by simp [maxRestarts])
          simp only at hlater
          split <;> omega
        · rw [crash_of_not_over hover] at hcount ⊢
          have hlater := @ih ⟨counters.count + 1, counters.windowStart⟩ hrest
            (fun crash hcrash => hbegun crash (List.mem_cons_of_mem now hcrash))
            (by simpa using hcount)
          simp only at hlater
          split <;> omega

/-- Any minute sees no more restarts than two windows have. -/
theorem countP_answered_le (hsorted : crashes.Pairwise (· ≤ ·)) (hcount : 0 ≤ counters.count)
    (hbounded : counters.count ≤ maxRestarts) :
    ((counters.answered crashes).countP (inMinute first) : ℤ) ≤ 2 * maxRestarts := by
  induction crashes generalizing counters with
  | nil => simp [answered, maxRestarts]
  | cons now rest ih =>
      by_cases hbegun : first ≤ now
      · have hall : ∀ crash ∈ now :: rest, first ≤ crash := by
          intro crash hcrash
          rcases List.mem_cons.mp hcrash with rfl | hrest
          · exact hbegun
          · exact hbegun.trans ((List.pairwise_cons.mp hsorted).1 crash hrest)
        have hbound := countP_answered_of_begun hsorted hall hbounded
        omega
      · by_cases hexceeded : maxRestarts < (counters.crash now).count
        · rw [answered_of_exceeded hexceeded]
          simp [maxRestarts]
        · have houtside : inMinute first now = false := by
            simp [inMinute, hbegun]
          have hnonneg : 0 ≤ (counters.crash now).count := by
            unfold crash
            split <;> simp only <;> omega
          rw [answered_of_not_exceeded hexceeded, List.countP_cons_of_neg (by simp [houtside])]
          exact ih (List.pairwise_cons.mp hsorted).2 hnonneg (not_lt.mp hexceeded)

/-- A later window starts when the one before it is over. -/
theorem eq_or_over_of_mem_windowStarts (hstart : start ∈ counters.windowStarts crashes) :
    start = counters.windowStart ∨ counters.windowStart + restartWindow < start := by
  induction crashes generalizing counters with
  | nil => exact Or.inl (List.mem_singleton.mp hstart)
  | cons now rest ih =>
      by_cases hcount : maxRestarts < (counters.crash now).count
      · rw [windowStarts, if_pos hcount] at hstart
        exact Or.inl (List.mem_singleton.mp hstart)
      · rw [windowStarts, if_neg hcount] at hstart
        rcases List.mem_cons.mp hstart with rfl | hlater
        · exact Or.inl rfl
        · by_cases hover : counters.windowStart + restartWindow < now
          · rw [crash_of_over hover] at hlater
            have hnext := ih hlater
            simp only [restartWindow] at hnext hover ⊢
            omega
          · rw [crash_of_not_over hover] at hlater
            exact @ih ⟨counters.count + 1, counters.windowStart⟩ hlater

/-- The minute of a window sees no more restarts than the window has: none of an
earlier window lies in it. -/
theorem countP_answered_of_mem_windowStarts (hsorted : crashes.Pairwise (· ≤ ·))
    (hcount : 0 ≤ counters.count) (hbounded : counters.count ≤ maxRestarts)
    (hstart : start ∈ counters.windowStarts crashes) :
    ((counters.answered crashes).countP (inMinute start) : ℤ) ≤ maxRestarts := by
  induction crashes generalizing counters with
  | nil => simp [answered, maxRestarts]
  | cons now rest ih =>
      have hrest := (List.pairwise_cons.mp hsorted).2
      by_cases hown : start = counters.windowStart
      · have hbound := countP_answered_of_le hsorted (le_of_eq hown) hbounded
        omega
      by_cases hexceeded : maxRestarts < (counters.crash now).count
      · rw [answered_of_exceeded hexceeded]
        simp [maxRestarts]
      rw [windowStarts, if_neg hexceeded] at hstart
      have hlater := (List.mem_cons.mp hstart).resolve_left hown
      rw [answered_of_not_exceeded hexceeded, List.countP_cons]
      by_cases hover : counters.windowStart + restartWindow < now
      · rw [crash_of_over hover] at hlater hexceeded ⊢
        by_cases hnow : start = now
        · -- the crash that starts the window is the first of its restarts
          have hbound := @countP_answered_of_le ⟨1, now⟩ start rest hrest (le_of_eq hnow)
            (not_lt.mp hexceeded)
          simp only at hbound
          split <;> omega
        · have hafter := (eq_or_over_of_mem_windowStarts hlater).resolve_left hnow
          have houtside : inMinute start now = false := by
            simp only [restartWindow] at hafter
            simp only [inMinute, decide_eq_false_iff_not, not_and]
            omega
          have hbound := @ih ⟨1, now⟩ hrest (by simp) (not_lt.mp hexceeded) hlater
          simpa [houtside] using hbound
      · rw [crash_of_not_over hover] at hlater hexceeded ⊢
        have hafter := (eq_or_over_of_mem_windowStarts hlater).resolve_left hown
        have houtside : inMinute start now = false := by
          simp only [inMinute, decide_eq_false_iff_not, not_and]
          simp only at hafter
          omega
        have hbound := @ih ⟨counters.count + 1, counters.windowStart⟩ hrest
          (by simp only; omega) (not_lt.mp hexceeded) hlater
        simpa [houtside] using hbound

end Counters

/-- A minute that starts with a window sees at most as many restarts as the loop
allows, any other one at most twice as many. -/
theorem restarts_within_minute {world : World} {strict : Bool} {state : State}
    {crashes : List ℤ} (hsorted : crashes.Pairwise (· ≤ ·)) (hcount : state.restartCount = 0) :
    (∀ first,
        ((answered world strict state crashes).countP (inMinute first) : ℤ) ≤ 2 * maxRestarts) ∧
      ∀ start ∈ windowStarts world strict state crashes,
        ((answered world strict state crashes).countP (inMinute start) : ℤ) ≤ maxRestarts := by
  have hzero : state.counters.count = 0 := hcount
  have hbounded : state.counters.count ≤ maxRestarts := by simp [hzero, maxRestarts]
  have hfewer (first : ℤ) : ((answered world strict state crashes).countP (inMinute first) : ℤ) ≤
      (state.counters.answered crashes).countP (inMinute first) :=
    Int.ofNat_le.mpr ((answered_sublist world).countP_le)
  constructor
  · intro first
    exact (hfewer first).trans (Counters.countP_answered_le hsorted (le_of_eq hzero.symm) hbounded)
  · intro start hstart
    exact (hfewer start).trans (Counters.countP_answered_of_mem_windowStarts hsorted
      (le_of_eq hzero.symm) hbounded (windowStarts_subset world hstart))

/-- Three crashes at the end of a window and three at the start of the next one. -/
theorem restarts_within_minute_launched :
    (answered quietWorld true launched [58, 59, 60, 61, 62, 63]).countP (inMinute 58) = 6 ∧
      ((answered quietWorld true launched [58, 59, 60, 61, 62, 63]).countP (inMinute 61) : ℤ) ≤
        maxRestarts := by
  have hlimits := @restarts_within_minute quietWorld true launched [58, 59, 60, 61, 62, 63]
    (by decide) rfl
  have hwindow : (61 : ℤ) ∈ windowStarts quietWorld true launched [58, 59, 60, 61, 62, 63] := by
    rw [windowStarts_eq quietWorld fun _ => rfl]
    decide
  refine ⟨?_, hlimits.2 61 hwindow⟩
  rw [answered_eq quietWorld fun _ => rfl]
  decide

/-- Four restarts within three seconds: the fourth crash starts a window. -/
theorem four_restarts_within_minute :
    ¬ ∀ first, ((answered quietWorld true launched [58, 59, 60, 61]).countP (inMinute first) : ℤ) ≤
      maxRestarts := by
  intro hlimit
  have hfour := hlimit 58
  rw [answered_eq quietWorld fun _ => rfl] at hfour
  exact absurd hfour (by decide)

end TizenRoblox.Launcher
