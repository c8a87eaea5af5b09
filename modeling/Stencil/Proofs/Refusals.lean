import Stencil.Proofs.Deferred

/-!
# Parse calls that are refused

A parse call is checked before anything else is done: first its callback, then its name, then the
executor (`World.refusal?`). A call that is refused leaves the world as it found it, so a session
with such calls in it goes on as if they had not been made (`run_refused`). A call without a name
passes the last check in any case; it calls back on the spot and does nothing else.
-/

namespace Stencil

variable {κ Ω : Type}

namespace Arguments

/-- The callback of a parse call, where the call ends up looking for it. -/
def receiver? (args : Arguments κ) : Option κ := args.shift.callback.callback?

theorem shift_ne_self_iff (args : Arguments κ) :
    args.shift ≠ args ↔ ∃ v k, args = ⟨.data v, .callback k, .absent⟩ := by
  obtain ⟨block, data, callback⟩ := args
  cases block <;> cases data <;> cases callback <;> simp [shift]

theorem receiver?_eq_some_iff {args : Arguments κ} {k : κ} :
    args.receiver? = some k ↔
      args.callback = .callback k ∨ ∃ v, args = ⟨.data v, .callback k, .absent⟩ := by
  obtain ⟨block, data, callback⟩ := args
  cases block <;> cases data <;> cases callback <;>
    simp [receiver?, shift, Argument.callback?]

theorem receiver?_eq_none_iff {args : Arguments κ} :
    args.receiver? = none ↔
      ∀ k, args.callback ≠ .callback k ∧ ∀ v, args ≠ ⟨.data v, .callback k, .absent⟩ := by
  simp only [Option.eq_none_iff_forall_ne_some, ne_eq, receiver?_eq_some_iff, not_or, not_exists]

end Arguments

namespace World

variable {w : World Ω} {host : Host Ω (World Ω)} {i : Nat} {name : String}
  {args : Arguments (Receiver Ω)} {executor : Bool} {e : Error}

-- ---------------------------------------------------------------------------
-- The checks
-- ---------------------------------------------------------------------------

def refusal? (w : World Ω) (name : String) (args : Arguments (Receiver Ω)) (executor : Bool) :
    Option Error :=
  if args.receiver?.isNone then some (.invalidArguments Arguments.notCallable)
  else if name = "" ∨ w.inExecutor ∨ executor then none
  else some .noExecutor

theorem refusal?_of_no_receiver (h : args.receiver? = none) :
    w.refusal? name args executor = some (.invalidArguments Arguments.notCallable) := by
  simp [refusal?, h]

theorem refusal?_eq_invalidArguments_iff {reason : String} :
    w.refusal? name args executor = some (.invalidArguments reason) ↔
      args.receiver? = none ∧ reason = Arguments.notCallable := by
  unfold refusal?
  split
  · rename_i h
    rw [Option.isNone_iff_eq_none] at h
    simpa only [h, true_and, Option.some.injEq, Error.invalidArguments.injEq] using eq_comm
  · split <;> simp_all

theorem refusal?_eq_noExecutor_iff :
    w.refusal? name args executor = some .noExecutor ↔
      args.receiver? ≠ none ∧ name ≠ "" ∧ w.inExecutor = false ∧ executor = false := by
  unfold refusal?
  split
  · simp_all
  · split <;> simp_all [or_iff_not_imp_left]

/-- There are no other reasons. -/
theorem eq_of_refusal? (h : w.refusal? name args executor = some e) :
    e = .invalidArguments Arguments.notCallable ∨ e = .noExecutor := by
  unfold refusal? at h
  split at h
  · exact .inl (Option.some.inj h).symm
  · split at h
    · cases h
    · exact .inr (Option.some.inj h).symm

-- ---------------------------------------------------------------------------
-- The call
-- ---------------------------------------------------------------------------

def calling (w : World Ω) (r : Receiver Ω) (executor : Bool) : World Ω :=
  { w.recordOutput r.label "" with inExecutor := w.inExecutor || executor }

theorem parse_of_refusal? (h : w.refusal? name args executor = some e) :
    parse host i name args executor w = (.failed e, w) := by
  rcases eq_of_refusal? h with rfl | rfl
  · have receiver : args.shift.callback.callback? = none :=
      (refusal?_eq_invalidArguments_iff.mp h).1
    simp [parse, parseShifted, receiver]
  · obtain ⟨receiver, named, outside, away⟩ := refusal?_eq_noExecutor_iff.mp h
    obtain ⟨r, receiver⟩ := Option.ne_none_iff_exists'.mp receiver
    replace receiver : args.shift.callback.callback? = some r := receiver
    have shut : { w with inExecutor := false } = w := by rw [← outside]
    simp [parse, parseShifted, receiver, named, outside, away, shut]

theorem parse_of_no_name {r : Receiver Ω} (h : args.receiver? = some r) :
    parse host i "" args executor w = (.done,
      { performAll host r.ops (w.calling r executor) with inExecutor := w.inExecutor }) := by
  replace h : args.shift.callback.callback? = some r := h
  simp only [parse, parseShifted, h]
  rfl

theorem schedule_ne_failed (r : Receiver Ω) (v : World Ω) :
    (schedule host i name args r v).1 ≠ .failed e := by
  unfold schedule
  split
  · exact nofun
  · split <;> exact nofun

/-- A call that passes the checks does not fail. -/
theorem parse_ne_failed (h : w.refusal? name args executor = none) :
    (parse host i name args executor w).1 ≠ .failed e := by
  cases hr : args.receiver? with
  | none => simp [refusal?_of_no_receiver hr] at h
  | some r =>
    by_cases hn : name = ""
    · subst hn
      simp [parse_of_no_name hr]
    · have inside : (w.inExecutor || executor) = true := by
        simpa [refusal?, hr, hn, or_iff_not_imp_left] using h
      rw [parse_eq_schedule host i hn hr inside]
      exact schedule_ne_failed r _

theorem parse_eq_failed_iff :
    (parse host i name args executor w).1 = .failed e ↔
      w.refusal? name args executor = some e := by
  cases h : w.refusal? name args executor with
  | none => simpa using parse_ne_failed h
  | some e' => simp [parse_of_refusal? h, eq_comm]

end World

-- ---------------------------------------------------------------------------
-- Sessions with parse calls that are refused
-- ---------------------------------------------------------------------------

namespace Session

open World

variable {w : World Op} {name : String} {args : Arguments (Receiver Op)} {executor : Bool}
  {e : Error}

theorem reportStep_of_step {op : Op} {answer : Answer} {w' : World Op}
    (h : step (hostAt depthLimit) (cleared w) op = (answer, w')) :
    reportStep w op = (⟨answer, w'.log, w'.outputs, w'.answers⟩, w') := by
  unfold reportStep
  rw [show step _ { w with log := [], outputs := [], answers := [] } op = _ from h]

/-- What was recorded before the session does not show in it. -/
theorem run_cleared (w : World Op) (ops : List Op) : run (cleared w) ops = run w ops := by
  cases ops <;> rfl

theorem run_append (w : World Op) (early late : List Op) :
    run w (early ++ late) = run w early ++ run (after w early) late := by
  induction early generalizing w with
  | nil => rfl
  | cons op rest ih => exact congrArg (_ :: ·) (ih _)

theorem reportStep_refused (handle : Nat) (h : w.refusal? name args executor = some e) :
    reportStep w (.parse handle name args executor) = (⟨.failed e, [], [], []⟩, cleared w) := by
  have refused : (cleared w).refusal? name args executor = some e := h
  have stepped : step (hostAt depthLimit) (cleared w) (.parse handle name args executor) =
      (.failed e, cleared w) := parse_of_refusal? refused
  exact reportStep_of_step stepped

/-- A parse call that is refused shows in its own report only, wherever it is made. -/
theorem run_refused (handle : Nat) (early late : List Op)
    (h : (after w early).refusal? name args executor = some e) :
    run w (early ++ .parse handle name args executor :: late) =
      run w early ++ ⟨.failed e, [], [], []⟩ :: run (after w early) late := by
  simp only [run_append, run, reportStep_refused handle h, run_cleared]

end Session

open World Session

/-- What a parse call answers before it asks for a render, in any world and whatever its host does
for the callback. Nothing is shifted but data and a callback with nothing behind them. The call is
refused for its arguments if and only if no callback is found, and for want of an executor if and
only if there is a callback, a name, and no executor. Then the world is what it was. A call with a
callback and no name calls back at once, in a world that is new in the output only, and is done
when the callback is. -/
theorem refused_parse_leaves_world (host : SessionHost) (i : Nat) (name : String)
    (args : Arguments (Receiver Op)) (executor : Bool) (w : World Op) :
    let outcome := parse host i name args executor w
    (args.shift ≠ args ↔ ∃ v r, args = ⟨.data v, .callback r, .absent⟩) ∧
    ((∃ reason, outcome.1 = .failed (.invalidArguments reason)) ↔
      ∀ r, args.callback ≠ .callback r ∧ ∀ v, args ≠ ⟨.data v, .callback r, .absent⟩) ∧
    (outcome.1 = .failed .noExecutor ↔
      (∃ r, args.receiver? = some r) ∧ name ≠ "" ∧ w.inExecutor = false ∧ executor = false) ∧
    (∀ e, outcome.1 = .failed e →
      (e = .invalidArguments Arguments.notCallable ∨ e = .noExecutor) ∧ outcome.2 = w) ∧
    (∀ r, args.receiver? = some r → name = "" →
      let called : World Op := { w with
        outputs := w.outputs ++ [(r.label, "")]
        inExecutor := w.inExecutor || executor }
      outcome = (.done, { performAll host r.ops called with inExecutor := w.inExecutor })) ∧
    ∀ v early late handle e, after v early = w → outcome.1 = .failed e →
      run v (early ++ .parse handle name args executor :: late) =
        run v early ++ ⟨.failed e, [], [], []⟩ :: run w late := by
  intro outcome
  have failed (e : Error) : outcome.1 = .failed e ↔ w.refusal? name args executor = some e :=
    parse_eq_failed_iff
  refine ⟨args.shift_ne_self_iff, ?_, ?_,
    fun e he => ⟨eq_of_refusal? ((failed e).mp he), ?_⟩, ?_, ?_⟩
  · simp only [failed, refusal?_eq_invalidArguments_iff, ← Arguments.receiver?_eq_none_iff]
    exact ⟨fun ⟨_, h, _⟩ => h, fun h => ⟨_, h, rfl⟩⟩
  · rw [failed, refusal?_eq_noExecutor_iff, Option.ne_none_iff_exists']
  · rw [show outcome = _ from parse_of_refusal? ((failed e).mp he)]
  · rintro r hr rfl
    exact parse_of_no_name hr
  · rintro v early late handle e rfl he
    exact run_refused handle early late ((failed e).mp he)

/-- Three calls in a world whose only renderer has a loader: the callback stands in the block's
place, there is no executor, and there is no name. -/
theorem refused_parse_leaves_world_page :
    let w := site (.template titlePage) .retain
    let shown : Receiver Op := ⟨"shown", []⟩
    let misplaced : Op := .parse 0 "page" ⟨.callback shown, .absent, .absent⟩ true
    let outside : Op := .parse 0 "page" ⟨.data .null, .callback shown, .absent⟩ false
    let nameless := parse (hostAt 0) 0 "" ⟨.absent, .absent, .callback shown⟩ false w
    run w [misplaced, outside] =
      [⟨.failed (.invalidArguments Arguments.notCallable), [], [], []⟩,
        ⟨.failed .noExecutor, [], [], []⟩] ∧
      nameless = (.done, w.recordOutput "shown" "") := by
  intro w shown misplaced outside nameless
  obtain ⟨-, -, -, -, -, first⟩ :=
    refused_parse_leaves_world (hostAt 0) 0 "page" ⟨.callback shown, .absent, .absent⟩ true w
  obtain ⟨-, -, -, -, -, second⟩ :=
    refused_parse_leaves_world (hostAt 0) 0 "page" ⟨.data .null, .callback shown, .absent⟩ false w
  obtain ⟨-, -, -, -, called, -⟩ :=
    refused_parse_leaves_world (hostAt 0) 0 "" ⟨.absent, .absent, .callback shown⟩ false w
  refine ⟨?_, called shown rfl rfl⟩
  rw [show run w [misplaced, outside] = _ from first w [] [outside] 0 _ rfl rfl,
    show run w [outside] = _ from second w [] [] 0 _ rfl rfl]
  rfl

end Stencil
