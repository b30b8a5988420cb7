import JavaMachine.Proofs.Turns

/-!
# Pausing a thread while it runs

A thread and any number of controllers share a phase and the halt flag.  Each of them does one thing
at a time: it reads or changes the phase, reads or sets the flag, or fetches an instruction.  The
steps of all of them may come in any order, so a controller may resume the thread and ask for the
next pause between two looks of the thread at its phase, and the machine may be halted anywhere.

`Handshake.Step` is one such step and `Handshake.Path` a number of them.  Whatever the order is, the
phase moves as it should, and no instruction is fetched while the thread is paused.  This rests on
one invariant: a thread whose phase is paused is held in the pause, or the machine is halted and the
thread is on its way out (`Handshake.Held`).  After a request at most one instruction is fetched
before the thread pauses or is resumed, because from each point of the thread there is at most one
fetch before it asks for its phase again (`Point.allowance`).

What a machine does between two instructions is a path of this kind.  The controllers that stand by
at its pause token do their part while the thread is held.
-/

namespace JavaMachine

namespace Phase

theorem request_cases (p : Phase) :
    p.request = p ∨ p = .running ∧ p.request = .pausing := by
  cases p <;> decide

theorem confirm?_eq_some {p held : Phase} (h : p.confirm? = some held) :
    p = .pausing ∧ held = .paused := by
  cases p with
  | pausing =>
      cases h
      exact ⟨rfl, rfl⟩
  | running => cases h
  | paused => cases h

end Phase

/-! ## Steps -/

/-- Where a thread is in a turn of a run. -/
inductive Point where
  /-- In front of the turn, it reads whether the machine is halted. -/
  | testing
  /-- It confirms a pause, if one is asked for. -/
  | asking
  /-- It is held, and reads its phase. -/
  | looking
  /-- It is held, and reads whether the machine is halted. -/
  | listening
  /-- It is released, and reads whether the machine is halted. -/
  | leaving
  /-- It fetches the next instruction. -/
  | fetching
  /-- It performs the instruction. -/
  | performing
  /-- It has left the run. -/
  | ended
  deriving Repr, DecidableEq

/-- Whether a thread may be there while its phase is paused: it is held in the pause, or the machine
is halted and it is on its way out. -/
def Point.rests (halted : Bool) : Point → Bool
  | looking | listening => true
  | testing | leaving | performing | ended => halted
  | asking | fetching => false

/-- How often an instruction is fetched, at most, before the thread asks for its phase again. -/
def Point.allowance : Point → Nat
  | looking | listening | leaving | fetching => 1
  | testing | asking | performing | ended => 0

/-- What a thread and its controllers share, and where the thread is. -/
structure Handshake where
  /-- The phase of the thread. -/
  phase : Phase
  /-- Whether the machine is halted. -/
  halted : Bool
  /-- Where the thread is in the innermost run. -/
  point : Point
  /-- The number of runs around that one.  Each of them waits in the middle of an instruction. -/
  outer : Nat
  deriving Repr, DecidableEq

namespace Handshake

/-- What is done in one step. -/
inductive Act where
  /-- A controller asks for a pause. -/
  | request
  /-- A controller resumes the thread. -/
  | resume
  /-- A controller halts the machine. -/
  | halt
  /-- A controller reads the phase. -/
  | observe
  /-- The thread confirms a pause. -/
  | confirm
  /-- The thread fetches an instruction. -/
  | fetch
  /-- The thread reads something, or begins or ends an instruction or a run. -/
  | move
  deriving Repr, DecidableEq

/-- One step of a controller or of the thread.  Natives that act as controllers are some of them. -/
inductive Step : Handshake → Act → Handshake → Prop
  | request (a : Handshake) : Step a .request { a with phase := a.phase.request }
  | resume (a : Handshake) : Step a .resume { a with phase := a.phase.resume }
  | halt (a : Handshake) : Step a .halt { a with halted := true }
  | observe (a : Handshake) : Step a .observe a
  | test {a : Handshake} : a.point = .testing →
      Step a .move { a with point := if a.halted then .ended else .asking }
  | confirm {a : Handshake} {held : Phase} : a.point = .asking → a.phase.confirm? = some held →
      Step a .confirm { a with phase := held, point := .looking }
  | pass {a : Handshake} : a.point = .asking → a.phase.confirm? = none →
      Step a .move { a with point := .fetching }
  | look {a : Handshake} : a.point = .looking →
      Step a .move { a with point := if a.phase = .paused then .listening else .leaving }
  | listen {a : Handshake} : a.point = .listening →
      Step a .move { a with point := if a.halted then .leaving else .looking }
  | leave {a : Handshake} : a.point = .leaving →
      Step a .move { a with point := if a.halted then .ended else .fetching }
  | fetch {a : Handshake} : a.point = .fetching → Step a .fetch { a with point := .performing }
  /-- There is nothing to fetch, which is a fault. -/
  | exhaust {a : Handshake} : a.point = .fetching → Step a .move { a with point := .ended }
  | next {a : Handshake} : a.point = .performing → Step a .move { a with point := .testing }
  | finish {a : Handshake} : a.point = .performing → Step a .move { a with point := .ended }
  /-- The instruction begins a run of its own. -/
  | nest {a : Handshake} : a.point = .performing →
      Step a .move { a with point := .testing, outer := a.outer + 1 }
  /-- The run was begun by an instruction, which goes on. -/
  | unnest {a : Handshake} {n : Nat} : a.point = .ended → a.outer = n + 1 →
      Step a .move { a with point := .performing, outer := n }
  /-- The thread begins another run. -/
  | again {a : Handshake} : a.point = .ended → a.outer = 0 →
      Step a .move { a with point := .testing }

/-- A number of steps. -/
inductive Path : Handshake → List Act → Handshake → Prop
  | nil (a : Handshake) : Path a [] a
  | cons {a b c : Handshake} {act : Act} {acts : List Act} : Step a act b → Path b acts c →
      Path a (act :: acts) c

/-- A number of steps during which the phase stays the same. -/
inductive During (p : Phase) : Handshake → List Act → Handshake → Prop
  | nil {a : Handshake} : a.phase = p → During p a [] a
  | cons {a b c : Handshake} {act : Act} {acts : List Act} : a.phase = p → Step a act b →
      During p b acts c → During p a (act :: acts) c

variable {a b c : Handshake} {act : Act} {acts more : List Act}

theorem Path.append (first : Path a acts b) (second : Path b more c) :
    Path a (acts ++ more) c := by
  induction first with
  | nil => exact second
  | cons step _ ih => exact .cons step (ih second)

theorem During.phase {p : Phase} (during : During p a acts b) : a.phase = p := by
  cases during with
  | nil same => exact same
  | cons same _ _ => exact same

/-! ## The phase -/

/-- How the phase moves: from running to pausing by a request, from pausing to paused by the thread,
and to running by a resume. -/
def Moves (a : Handshake) (act : Act) (b : Handshake) : Prop :=
  b.phase = a.phase ∨ (act = .request ∧ a.phase = .running ∧ b.phase = .pausing) ∨
    (act = .confirm ∧ a.phase = .pausing ∧ b.phase = .paused) ∨
    (act = .resume ∧ b.phase = .running)

theorem Step.moves (step : Step a act b) : a.Moves act b := by
  cases step with
  | request =>
      obtain same | ⟨running, pausing⟩ := Phase.request_cases a.phase
      · exact .inl same
      · exact .inr (.inl ⟨rfl, running, pausing⟩)
  | resume => exact .inr (.inr (.inr ⟨rfl, rfl⟩))
  | confirm _ asked => exact .inr (.inr (.inl ⟨rfl, Phase.confirm?_eq_some asked⟩))
  | _ => exact .inl rfl

/-! ## No instruction is fetched while the thread is paused -/

/-- While the phase is paused, the thread is held, or the machine is halted and the thread is on its
way out. -/
def Held (a : Handshake) : Prop := a.phase = .paused → a.point.rests a.halted = true

theorem Step.held (step : Step a act b) (held : a.Held) : b.Held := by
  intro paused
  cases step with
  | request =>
      obtain same | ⟨-, pausing⟩ := Phase.request_cases a.phase
      · exact held (same.symm.trans paused)
      · exact absurd (pausing.symm.trans paused) nofun
  | resume => exact absurd paused nofun
  | halt =>
      have rests := held paused
      revert rests
      cases a.point <;> simp [Point.rests]
  | observe => exact held paused
  | confirm => rfl
  | look => simp [Point.rests, show a.phase = .paused from paused]
  | test here | leave here =>
      have halted : a.halted = true := by simpa [here, Point.rests] using held paused
      simp [Point.rests, halted]
  | listen =>
      cases halted : a.halted <;> simp [Point.rests]
  | pass here | fetch here | exhaust here => simpa [here, Point.rests] using held paused
  | next here | finish here | nest here | unnest here | again here =>
      simpa [here, Point.rests] using held paused

theorem Path.held (path : Path a acts b) (held : a.Held) : b.Held := by
  induction path with
  | nil => exact held
  | cons step _ ih => exact ih (step.held held)

/-- Only a thread that is not paused fetches an instruction. -/
theorem Step.unpaused_of_fetch (step : Step a .fetch b) (held : a.Held) : a.phase ≠ .paused := by
  intro paused
  cases step with
  | fetch here => simpa [here, Point.rests] using held paused

/-! ## At most one instruction is fetched after a request -/

/-- While a pause is asked for, a fetch uses up the allowance of the thread, and no other step adds
to it. -/
theorem Step.allowance (step : Step a act b) (asked : a.phase = .pausing)
    (still : b.phase = .pausing) :
    [act].count .fetch + b.point.allowance ≤ a.point.allowance := by
  cases step with
  | request | resume | halt | observe => simp
  | confirm here held => rw [(Phase.confirm?_eq_some held).2] at still; cases still
  | pass here none => rw [asked] at none; cases none
  | test here | leave here | listen here =>
      cases halted : a.halted <;> simp [here, Point.allowance]
  | look here => simp [here, asked, Point.allowance]
  | fetch here | exhaust here | next here | finish here | nest here | unnest here | again here =>
      simp [here, Point.allowance]

theorem During.count_fetch (during : During .pausing a acts b) :
    acts.count .fetch ≤ a.point.allowance := by
  induction during with
  | nil => simp
  | cons asked step rest ih =>
      have spent := step.allowance asked rest.phase
      rw [List.count_cons]
      rw [List.count_singleton] at spent
      omega

theorem During.count_fetch_le_one (during : During .pausing a acts b) :
    acts.count .fetch ≤ 1 := by
  refine during.count_fetch.trans ?_
  cases a.point <;> decide

end Handshake

/-! ## The machine between two instructions -/

/-- A controller that stands by resumes the thread or halts the machine. -/
theorem Release.acts_of_nonempty {due : List Release} (waits : ¬ due.isEmpty = true) :
    (due.contains .resume || due.contains .halt) = true := by
  cases due with
  | nil => exact absurd rfl waits
  | cons r rest => cases r <;> simp

/-- The pause token of the thread. -/
def Machine.token (m : Machine) : PauseToken := (m.world.tokens[m.thread.token]?).getD {}

/-- The handshake of a machine whose thread is somewhere in the innermost of its runs. -/
def Machine.handshake (m : Machine) (point : Point) (outer : Nat) : Handshake :=
  ⟨m.token.phase, m.world.halted, point, outer⟩

/-- A token that is not running was issued. -/
theorem Machine.token_modify {m : Machine} {f : PauseToken → PauseToken}
    (issued : m.token.phase ≠ .running) :
    (({ m with world := { m.world with
      tokens := m.world.tokens.modify m.thread.token f } } : Machine)).token = f m.token := by
  unfold Machine.token at issued ⊢
  rw [Array.getElem?_modify, if_pos rfl]
  cases found : m.world.tokens[m.thread.token]? with
  | none =>
      rw [found] at issued
      exact absurd rfl issued
  | some t => rfl

namespace Exec

open Handshake

variable {s : Settings} {m m' : Machine} {k : Nat}

theorem pauseToken_run : pauseToken m.thread.token s m = .ok m.token m := rfl

/-- What the controllers that stand by do to a thread that is held. -/
theorem settleToken_run (held : m.token.phase = .paused) :
    ∃ m', settleToken m.thread.token s m = .ok () m' ∧ m'.thread = m.thread ∧
      m'.token.phase = (if m.token.due.contains .resume then .running else .paused) ∧
      m'.world.halted = (m.world.halted || m.token.due.contains .halt) := by
  have settled := Machine.token_modify (m := m) (f := PauseToken.settle) (by rw [held]; decide)
  have phase : m.token.settle.phase =
      if m.token.due.contains .resume then .running else .paused := by
    rw [PauseToken.settle, held]
    rfl
  unfold settleToken
  rw [bind_of_ok pauseToken_run, modifyToken, bind_of_ok (modifyWorld_run _)]
  split
  next halts =>
    refine ⟨_, rfl, rfl, (congrArg PauseToken.phase settled).trans phase, ?_⟩
    rw [halts, Bool.or_true]
  next spares =>
    refine ⟨_, rfl, rfl, (congrArg PauseToken.phase settled).trans phase, ?_⟩
    rw [Bool.eq_false_iff.mpr spares, Bool.or_false]

/-- The end of a pause only reports. -/
theorem checkpoint_end {held : Phase} {b : Bool} (h : (do
    if (← pauseToken m.thread.token).phase = held then report .haltedWhilePaused
    else report .threadResumed
    return true : Exec Bool) s m = .ok b m') :
    b = true ∧ ∀ point, m'.handshake point k = m.handshake point k := by
  rw [bind_of_ok pauseToken_run] at h
  have told (e : Event) (h : (do report e; return true : Exec Bool) s m = .ok b m') :
      b = true ∧ ∀ point, m'.handshake point k = m.handshake point k := by
    obtain ⟨events, run⟩ := report_run (s := s) (m := m) e
    rw [bind_of_ok run] at h
    cases h
    exact ⟨rfl, fun _ => rfl⟩
  split at h
  · exact told _ h
  · exact told _ h

end Exec

namespace Handshake

variable {a : Handshake}

/-- A controller resumes a thread that is held, and the thread leaves the pause. -/
theorem path_of_resume (here : a.point = .looking) :
    Path a [.resume, .move] { a with phase := .running, point := .leaving } :=
  .cons (.resume a) (.cons (.look here) (.nil _))

/-- A thread that is held leaves the pause of a halted machine. -/
theorem path_of_halted (here : a.point = .looking) (held : a.phase = .paused)
    (halted : a.halted = true) : Path a [.move, .move] { a with point := .leaving } := by
  have looks := Step.look here
  rw [if_pos held] at looks
  have listens := Step.listen (a := { a with point := .listening }) rfl
  rw [if_pos halted] at listens
  exact .cons looks (.cons listens (.nil _))

/-- The controllers that stand by act while the thread is held, and it leaves the pause. -/
theorem path_of_settled (here : a.point = .looking) (held : a.phase = .paused)
    {resumes halts : Bool} (acts : (resumes || (a.halted || halts)) = true) :
    ∃ acts, .fetch ∉ acts ∧ Path a acts
      ⟨if resumes then .running else .paused, a.halted || halts, .leaving, a.outer⟩ := by
  -- the machine is halted first, if it is
  obtain ⟨first, quiet, path⟩ : ∃ acts, .fetch ∉ acts ∧
      Path a acts { a with halted := a.halted || halts } := by
    cases halts with
    | false => exact ⟨[], nofun, by rw [Bool.or_false]; exact .nil a⟩
    | true => exact ⟨[.halt], by decide, by rw [Bool.or_true]; exact .cons (.halt a) (.nil _)⟩
  cases resumes with
  | true =>
      refine ⟨first ++ [.resume, .move], by simp [quiet], path.append ?_⟩
      exact path_of_resume (a := { a with halted := a.halted || halts }) here
  | false =>
      refine ⟨first ++ [.move, .move], by simp [quiet], path.append ?_⟩
      have out := path_of_halted (a := { a with halted := a.halted || halts }) here held acts
      simpa [held] using out

end Handshake

namespace Exec

open Handshake

variable {s : Settings} {m m' : Machine} {k : Nat}

/-- A thread that confirms a pause changes nothing but its phase, and reports it. -/
theorem confirm_run (pausing : m.token.phase = .pausing) : ∃ mid held : Machine,
    modifyToken m.thread.token ({ · with phase := .paused }) s m = .ok () mid ∧
      report .threadPaused s mid = .ok () held ∧ held.thread = m.thread ∧
      held.token = { m.token with phase := .paused } ∧ held.world.halted = m.world.halted := by
  have token := Machine.token_modify (m := m) (f := ({ · with phase := .paused }))
    (by rw [pausing]; decide)
  obtain ⟨events, told⟩ := report_run (s := s) (m := { m with world := { m.world with
    tokens := m.world.tokens.modify m.thread.token ({ · with phase := .paused }) } }) .threadPaused
  exact ⟨_, _, modifyWorld_run _, told, rfl, token, rfl⟩

/-- A thread at its checkpoint goes on when no pause is asked for; else it confirms the pause and
leaves it. -/
theorem checkpoint_path {b : Bool} (h : checkpoint s m = .ok b m') :
    ∃ acts, .fetch ∉ acts ∧ Path (m.handshake .asking k) acts
      (m'.handshake (if b then .leaving else .fetching) k) := by
  rw [checkpoint, bind_of_ok thread_run, bind_of_ok pauseToken_run] at h
  cases asked : m.token.phase.confirm? with
  | none =>
      simp only [asked] at h
      cases h
      exact ⟨[.move], by decide, .cons (.pass rfl asked) (.nil _)⟩
  | some phase =>
      simp only [asked] at h
      obtain ⟨pausing, rfl⟩ := Phase.confirm?_eq_some asked
      obtain ⟨mid, held, moved, told, same, token, halted⟩ := confirm_run (s := s) pausing
      rw [bind_of_ok moved, bind_of_ok told, bind_of_ok isHalted_run] at h
      have confirmed : Step (m.handshake .asking k) .confirm (held.handshake .looking k) := by
        have view : held.handshake .looking k = ⟨.paused, m.world.halted, .looking, k⟩ := by
          rw [Machine.handshake, token, halted]
        rw [view]
        exact .confirm rfl asked
      -- what is left is that the thread leaves the pause
      suffices rest : b = true ∧ ∃ acts, .fetch ∉ acts ∧
          Path (held.handshake .looking k) acts (m'.handshake .leaving k) by
        obtain ⟨rfl, acts, quiet, path⟩ := rest
        exact ⟨.confirm :: acts, by simp [quiet], .cons confirmed path⟩
      rw [← same] at h
      have paused : held.token.phase = .paused := by rw [token]
      split at h
      next out =>
        obtain ⟨rfl, ended⟩ := checkpoint_end (k := k) h
        rw [ended]
        exact ⟨rfl, _, by decide, path_of_halted rfl paused out⟩
      next running =>
        split at h
        · cases h
        next waits =>
          obtain ⟨last, settled, thread, phase, out⟩ := settleToken_run (s := s) paused
          rw [bind_of_ok settled, ← thread] at h
          obtain ⟨rfl, ended⟩ := checkpoint_end (k := k) h
          rw [ended]
          have same : held.token.due = m.token.due := by rw [token]; rfl
          have acts := Release.acts_of_nonempty waits
          rw [← same] at acts
          have view : last.handshake .leaving k = ⟨if held.token.due.contains .resume then .running
              else .paused, held.world.halted || held.token.due.contains .halt, .leaving, k⟩ := by
            rw [Machine.handshake, phase, out]
          rw [view]
          refine ⟨rfl, path_of_settled (a := held.handshake .looking k) rfl paused ?_⟩
          rw [Bool.or_left_comm, acts, Bool.or_true]

/-- What stands between two instructions is a path on which nothing is fetched.  It leads to the
next instruction or out of the run. -/
theorem stopsHere_path {b : Bool} (h : stopsHere s m = .ok b m') :
    ∃ acts, .fetch ∉ acts ∧ Path (m.handshake .testing k) acts
      (m'.handshake (if b then .ended else .fetching) k) := by
  have test : Step (m.handshake .testing k) .move
      (m.handshake (if m.world.halted then .ended else .asking) k) := .test rfl
  rw [stopsHere, bind_of_ok isHalted_run] at h
  split at h
  next halted =>
    cases h
    rw [if_pos halted] at test
    exact ⟨[.move], by decide, .cons test (.nil _)⟩
  next running =>
    rw [if_neg running] at test
    obtain ⟨paused, mid, checked, h⟩ := bind_eq_ok h
    obtain ⟨acts, quiet, path⟩ := checkpoint_path (k := k) checked
    cases paused with
    | false =>
        cases h
        exact ⟨.move :: acts, by simp [quiet], .cons test path⟩
    | true =>
        have last : isHalted s mid = .ok b m' := h
        rw [isHalted_run] at last
        cases last
        have leave : Step (m'.handshake .leaving k) .move
            (m'.handshake (if m'.world.halted then .ended else .fetching) k) := .leave rfl
        refine ⟨.move :: (acts ++ [.move]), by simp [quiet], .cons test (path.append ?_)⟩
        exact .cons leave (.nil _)

end Exec

namespace Machine

open Handshake

/-- Between two machines the thread has stayed where it is in its turn. -/
def Stands (m m' : Machine) : Prop := ∀ point k, ∃ acts, .fetch ∉ acts ∧
  Path (m.handshake point k) acts (m'.handshake point k)

theorem Stands.of_eq {m m' : Machine}
    (same : ∀ point k, m'.handshake point k = m.handshake point k) : m.Stands m' :=
  fun point k => ⟨[], nofun, same point k ▸ .nil _⟩

instance : AllowsReports Stands where
  refl _ := .of_eq fun _ _ => rfl
  trans _ _ _ first second point k := by
    obtain ⟨acts, quiet, path⟩ := first point k
    obtain ⟨more, quiet', path'⟩ := second point k
    exact ⟨acts ++ more, by simp [quiet, quiet'], path.append path'⟩
  reports _ _ _ := .of_eq fun _ _ => rfl
  remembers _ _ := .of_eq fun _ _ => rfl

end Machine

namespace Exec

open Handshake

variable {s : Settings} {m m' a b : Machine} {k : Nat}

/-- What changes nothing that the controllers share. -/
theorem stands_of_eq {α : Type} {x : Exec α}
    (same : ∀ s m point k, (x.after s m).handshake point k = m.handshake point k) :
    Keeps Machine.Stands x := fun s m => .of_eq (same s m)

theorem halt_stands : Keeps Machine.Stands halt :=
  (report_keeps _).bind fun _ _ m point k =>
    ⟨[.halt], by decide, .cons (.halt (m.handshake point k)) (.nil _)⟩

theorem mustCollect_stands : Keeps Machine.Stands mustCollect := by
  refine (stands_of_eq fun _ _ _ _ => rfl).bind fun _ =>
    world_keeps.bind fun w => ?_
  split
  · exact halt_stands.bind fun _ => .pure _
  · exact .pure _

/-- Counting an instruction and collecting leave the thread where it is.  The machine may be halted
on the occasion. -/
theorem safepoint_stands : Keeps Machine.Stands safepoint := by
  refine isHalted_keeps.bind fun halted => (stands_of_eq fun _ _ _ _ => rfl).bind fun _ =>
    thread_keeps.bind fun t => read_keeps.bind fun s => ?_
  have ending (due : Bool) : Keeps Machine.Stands (if due then do
      report (.collecting t.executed
        (decide (0 < s.config.collectInterval) && t.executed % s.config.collectInterval == 0))
      modifyWorld fun w => { w with collector := w.collector.collect } else pure ()) := by
    split
    · exact (report_keeps _).bind fun _ => stands_of_eq fun _ _ _ _ => rfl
    · exact .pure _
  dsimp only
  split
  · exact Keeps.bind (.pure _) ending
  · exact mustCollect_stands.bind ending

/-- Fetching an instruction changes nothing that the controllers share. -/
theorem fetch_stands : Keeps Machine.Stands fetch := by
  refine .bind (moveFrame_moves fun _ _ _ _ _ _ => .of_eq fun _ _ => rfl) fun _ => ?_
  refine .bind (.bind (onFrame_moves fun _ _ _ _ _ _ _ => .of_eq fun _ _ => rfl) fun _ => .pure _)
    fun byte => read_keeps.bind fun settings => ?_
  dsimp only
  split
  · exact frame_keeps.bind fun f => (report_keeps _).bind fun _ => .pure _
  · exact .pure _

/-- A turn that comes to its instruction is a path on which that one instruction is fetched. -/
theorem fetch_path {byte : UInt8} (first : stopsHere s m = .ok false a)
    (second : safepoint s a = .ok () b) (third : fetch s b = .ok byte m') :
    ∃ acts, acts.count .fetch = 1 ∧
      Path (m.handshake .testing k) acts (m'.handshake .performing k) := by
  obtain ⟨checks, quiet, checked⟩ := stopsHere_path (k := k) first
  obtain ⟨counts, quiet', counted⟩ := safepoint_stands.of_ok second .fetching k
  obtain ⟨reads, quiet'', read⟩ := fetch_stands.of_ok third .performing k
  refine ⟨checks ++ (counts ++ .fetch :: reads), ?_, checked.append (counted.append ?_)⟩
  · simp [List.count_eq_zero.mpr, quiet, quiet', quiet'']
  · exact .cons (.fetch rfl) read

end Exec

namespace Handshake

/-- The handshake of a pause is safe.  In every order of the steps of a thread and its controllers,
the phase moves only from running to pausing by a request, from pausing to paused by the thread, and
to running by a resume; no instruction is fetched while the phase is paused, also when the machine
is halted then; and after a request, for as long as the phase is pausing, at most one instruction is
fetched.  The steps that a machine does in a turn of a run are such an order: none of them fetches
an instruction when the run ends there, and one of them does otherwise. -/
theorem pause_safe :
    (∀ {start a : Handshake} {acts : List Act}, start.point = .testing →
      (start.phase = .paused → start.halted = true) → Path start acts a →
        (∀ act b, Step a act b → a.Moves act b) ∧
        (∀ b, Step a .fetch b → a.phase ≠ .paused) ∧
        ∀ b more c, Step a .request b → During .pausing b more c → more.count .fetch ≤ 1) ∧
    ∀ (s : Settings) (m a : Machine) (k : Nat),
      (Exec.stopsHere s m = .ok true a →
        ∃ acts, .fetch ∉ acts ∧ Path (m.handshake .testing k) acts (a.handshake .ended k)) ∧
      (∀ b byte m', Exec.stopsHere s m = .ok false a → Exec.safepoint s a = .ok () b →
        Exec.fetch s b = .ok byte m' → ∃ acts, acts.count .fetch = 1 ∧
          Path (m.handshake .testing k) acts (m'.handshake .performing k)) := by
  refine ⟨fun {start a acts} here fresh path => ?_, fun s m a k => ⟨?_, ?_⟩⟩
  · have held : start.Held := fun paused => by
      rw [here, fresh paused]
      rfl
    exact ⟨fun _ _ step => step.moves, fun _ step => step.unpaused_of_fetch (path.held held),
      fun _ _ _ _ during => during.count_fetch_le_one⟩
  · exact Exec.stopsHere_path
  · exact fun b byte m' => Exec.fetch_path

/-- A controller resumes the thread and asks again before the thread has looked.  It leaves the
first pause and fetches the one instruction that it may fetch. -/
theorem pause_safe_asked_again :
    let held : Handshake := ⟨.running, false, .looking, 0⟩
    let asked : Handshake := ⟨.pausing, false, .looking, 0⟩
    Path ⟨.running, false, .testing, 0⟩ [.request, .move, .confirm, .resume] held ∧
      Step held .request asked ∧
      During .pausing asked [.move, .move, .fetch] ⟨.pausing, false, .performing, 0⟩ ∧
      [Act.move, .move, .fetch].count .fetch ≤ 1 := by
  intro held asked
  have path : Path ⟨.running, false, .testing, 0⟩ [.request, .move, .confirm, .resume] held :=
    .cons (.request _) (.cons (.test rfl) (.cons (.confirm rfl rfl) (.cons (.resume _) (.nil _))))
  have again : Step held .request asked := .request held
  have during : During .pausing asked [.move, .move, .fetch] ⟨.pausing, false, .performing, 0⟩ :=
    .cons rfl (.look rfl) (.cons rfl (.leave rfl) (.cons rfl (.fetch rfl) (.nil rfl)))
  have safe := pause_safe.1 rfl (by nofun) path
  exact ⟨path, again, during, safe.2.2 _ _ _ again during⟩

end Handshake

end JavaMachine
