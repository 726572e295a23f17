import Mathlib.Data.List.Range
import ScriptBoundary.Boundary.World

/-!
# Threads at the platform

Any number of threads make instances, as many as they like, and ask in between how many there are.
Their steps come in any order: several may stand at the gate before there is a platform, and some
may wait there while one sets it up.

What is known of the threads depends on the gate (`Crowd.Positions`). While it is shut, all of them
are before it. While it is opening there is one that sets the platform up, and all others are before
it. Once it is open nobody sets anything up any more, since a thread does that only if it finds the
gate shut. So the setting up is counted once, and it is over before the first number is drawn.

The numbers are counted apart from that (`Crowd.Counted`): those that were drawn are the first ones,
however they are distributed among the threads. `Crowd.drawn` gathers them from the threads, and the
platform has no part in it. That it knows how many there are is a result.

## Main results

* `Crowd.Counted.step`, `Crowd.Positions.step`: what one step of one thread keeps
* `Crowd.run_alone`: a thread alone at the platform does what making an instance does
* `enrolment_is_orderly`: what every schedule of any threads comes to
-/

namespace ScriptBoundary.Boundary

namespace Crowd

/-- The numbers that were handed out, thread by thread. -/
def drawn (c : Crowd) : List Nat := c.workers.flatMap (·.drawn)

/-! ## Steps -/

/-- What a step of a thread can do, one constructor for each way it can go. -/
inductive Moves : Platform → Worker → Platform → Worker → Prop where
  /-- It has nothing to do. -/
  | idle {p : Platform} {w : Worker} (h : w.jobs = []) : Moves p w p w
  /-- It waits for another thread to set the platform up. -/
  | wait {p : Platform} {w : Worker} (hw : w.phase = .arriving) (hp : p.gate = .opening) :
    Moves p w p w
  | begin {p : Platform} {w : Worker} (hj : w.jobs ≠ []) (hw : w.phase = .arriving)
    (hp : p.gate = .shut) :
    Moves p w { p with gate := .opening } { w with phase := .settingUp }
  | pass {p : Platform} {w : Worker} (hj : w.jobs ≠ []) (hw : w.phase = .arriving)
    (hp : p.gate = .opened) :
    Moves p w p { w with phase := .admitted }
  | countBootstrap {p : Platform} {w : Worker} (hj : w.jobs ≠ []) (hw : w.phase = .settingUp) :
    Moves p w p.countBootstrap { w with phase := .installing }
  | install {p : Platform} {w : Worker} (hj : w.jobs ≠ []) (hw : w.phase = .installing) :
    Moves p w p.install { w with phase := .admitted }
  | draw {p : Platform} {w : Worker} {rest : List Job} (hj : w.jobs = .create :: rest)
    (hw : w.phase = .admitted) :
    Moves p w p.draw.1 ⟨.arriving, rest, p.draw.2 :: w.drawn, w.counts⟩
  | read {p : Platform} {w : Worker} {rest : List Job} (hj : w.jobs = .count :: rest)
    (hw : w.phase = .admitted) :
    Moves p w p ⟨.arriving, rest, w.drawn, p.issued :: w.counts⟩

variable {p q : Platform} {w u : Worker} {c : Crowd} {t : Nat}

theorem moves (p : Platform) (w : Worker) : Moves p w (move p w).1 (move p w).2 := by
  rw [move]
  split
  · next hj => exact .idle hj
  · next job rest hj =>
    have hsome : w.jobs ≠ [] := hj ▸ List.cons_ne_nil _ _
    split
    · next hw =>
      split
      · next hp => exact .begin hsome hw hp
      · next hp => exact .wait hw hp
      · next hp => exact .pass hsome hw hp
    · next hw => exact .countBootstrap hsome hw
    · next hw => exact .install hsome hw
    · next hw =>
      split
      · exact .draw hj hw
      · exact .read hj hw

/-- A step is one of some thread that is there, or nothing happens. -/
theorem step_cases (c : Crowd) (t : Nat) :
    c.step t = c ∨ ∃ l w r q u, c.workers = l ++ w :: r ∧ t = l.length
      ∧ Moves c.platform w q u ∧ c.step t = ⟨q, l ++ u :: r⟩ := by
  rw [step]
  split
  · exact .inl rfl
  · next w hw =>
    obtain ⟨hlt, hget⟩ := List.getElem?_eq_some_iff.mp hw
    have hsplit : c.workers = c.workers.take t ++ w :: c.workers.drop (t + 1) := by
      rw [← hget, List.getElem_cons_drop, List.take_append_drop]
    have hlen : t = (c.workers.take t).length := (List.length_take_of_le hlt.le).symm
    refine .inr ⟨_, w, _, _, _, hsplit, hlen, moves c.platform w, ?_⟩
    rw [List.set_eq_take_append_cons_drop, if_pos hlt]

/-- **What every schedule keeps** of the threads at a platform. -/
theorem run_keeps {P : Crowd → Prop} (start : P c)
    (step : ∀ {l r p w q u}, Moves p w q u → P ⟨p, l ++ w :: r⟩ → P ⟨q, l ++ u :: r⟩)
    (schedule : List Nat) : P (c.run schedule) := by
  induction schedule generalizing c with
  | nil => exact start
  | cons t schedule ih =>
    refine ih (c := c.step t) ?_
    obtain h | ⟨l, w, r, q, u, hworkers, -, hmoves, h⟩ := step_cases c t
    · rwa [h]
    · rw [h]
      refine step hmoves ?_
      rwa [← hworkers]

/-! ## Who is where -/

/-- Where the threads are, for each state of the gate, and how often the platform was set up. -/
def Positions (c : Crowd) : Prop :=
  match c.platform.gate with
  | .shut => c.platform.bootstraps = 0 ∧ ∀ w ∈ c.workers, w.phase = .arriving
  | .opening => ∃ l w r, c.workers = l ++ w :: r ∧ w.jobs ≠ []
      ∧ (w.phase = .settingUp ∧ c.platform.bootstraps = 0
        ∨ w.phase = .installing ∧ c.platform.bootstraps = 1)
      ∧ ∀ u ∈ l ++ r, u.phase = .arriving
  | .opened =>
    c.platform.bootstraps = 1 ∧ ∀ w ∈ c.workers, w.phase = .arriving ∨ w.phase = .admitted

theorem positions_gather (jobs : List (List Job)) : (gather .absent jobs).Positions := by
  refine ⟨rfl, fun w hw => ?_⟩
  obtain ⟨js, -, rfl⟩ := List.mem_map.mp hw
  rfl

theorem positions_of_shut (h : c.platform.gate = .shut) : c.Positions ↔
    c.platform.bootstraps = 0 ∧ ∀ w ∈ c.workers, w.phase = .arriving := by
  rw [Positions, h]

theorem positions_of_opened (h : c.platform.gate = .opened) : c.Positions ↔
    c.platform.bootstraps = 1 ∧ ∀ w ∈ c.workers, w.phase = .arriving ∨ w.phase = .admitted := by
  rw [Positions, h]

/-- A thread that is not before the gate while it is opening is the one that opens it. -/
theorem Positions.alone {l r : List Worker} (h : Positions ⟨p, l ++ w :: r⟩)
    (hp : p.gate = .opening) (hw : w.phase ≠ .arriving) :
    (w.phase = .settingUp ∧ p.bootstraps = 0 ∨ w.phase = .installing ∧ p.bootstraps = 1)
      ∧ ∀ u ∈ l ++ r, u.phase = .arriving := by
  rw [Positions, hp] at h
  obtain ⟨l', w', r', hws, -, hphase, hothers⟩ := h
  have hmem : w ∈ l' ++ w' :: r' := hws ▸ List.mem_append_right l List.mem_cons_self
  have hww : w = w' := by
    rcases List.mem_append.mp hmem with hl | hr
    · exact absurd (hothers w (List.mem_append_left _ hl)) hw
    · rcases List.mem_cons.mp hr with hww | hr
      · exact hww
      · exact absurd (hothers w (List.mem_append_right _ hr)) hw
  subst hww
  have hperm : (l ++ r).Perm (l' ++ r') := by
    have hcons : (w :: (l ++ r)).Perm (w :: (l' ++ r')) :=
      (List.perm_middle.symm.trans (.of_eq hws)).trans List.perm_middle
    exact hcons.cons_inv
  exact ⟨hphase, fun u hu => hothers u (hperm.mem_iff.mp hu)⟩

/-- A thread that is at work on the platform has found the gate opening. -/
theorem Positions.gate_of_phase {l r : List Worker} (h : Positions ⟨p, l ++ w :: r⟩)
    (hw : w.phase = .settingUp ∨ w.phase = .installing) : p.gate = .opening := by
  have hmem : w ∈ l ++ w :: r := List.mem_append_right l List.mem_cons_self
  cases hp : p.gate with
  | opening => rfl
  | shut =>
    have hphase := ((positions_of_shut hp).mp h).2 w hmem
    rcases hw with hw | hw <;> (rw [hphase] at hw; cases hw)
  | opened =>
    rcases ((positions_of_opened hp).mp h).2 w hmem with hphase | hphase <;>
      rcases hw with hw | hw <;> (rw [hphase] at hw; cases hw)

/-- A thread that is behind the gate has found it open. -/
theorem Positions.gate_of_admitted {l r : List Worker} (h : Positions ⟨p, l ++ w :: r⟩)
    (hw : w.phase = .admitted) : p.gate = .opened := by
  have hmem : w ∈ l ++ w :: r := List.mem_append_right l List.mem_cons_self
  cases hp : p.gate with
  | opened => rfl
  | shut =>
    have hphase := ((positions_of_shut hp).mp h).2 w hmem
    rw [hphase] at hw
    cases hw
  | opening =>
    rcases (h.alone hp (by rw [hw]; nofun)).1 with ⟨hphase, -⟩ | ⟨hphase, -⟩ <;>
      (rw [hphase] at hw; cases hw)

/-- **One step of one thread keeps everybody in place.** -/
theorem Positions.step {l r : List Worker} (hm : Moves p w q u)
    (h : Positions ⟨p, l ++ w :: r⟩) : Positions ⟨q, l ++ u :: r⟩ := by
  have hothers : ∀ {P : Worker → Prop}, (∀ x ∈ l ++ w :: r, P x) → ∀ x ∈ l ++ r, P x :=
    fun hall x hx => hall x (by simp only [List.mem_append, List.mem_cons] at hx ⊢; tauto)
  have hall : ∀ {P : Worker → Prop}, (∀ x ∈ l ++ r, P x) → P u → ∀ x ∈ l ++ u :: r, P x := by
    intro P hrest hu x hx
    rcases List.mem_cons.mp (List.perm_middle.mem_iff.mp hx) with rfl | hx
    · exact hu
    · exact hrest x hx
  cases hm with
  | idle => exact h
  | wait => exact h
  | begin hj hw hp =>
    obtain ⟨hzero, hphase⟩ := (positions_of_shut hp).mp h
    exact ⟨l, _, r, rfl, hj, .inl ⟨rfl, hzero⟩, hothers hphase⟩
  | pass hj hw hp =>
    obtain ⟨hone, hphase⟩ := (positions_of_opened hp).mp h
    exact (positions_of_opened hp).mpr ⟨hone, hall (hothers hphase) (.inr rfl)⟩
  | countBootstrap hj hw =>
    have hp := h.gate_of_phase (.inl hw)
    obtain ⟨⟨-, hzero⟩ | ⟨hphase, -⟩, hrest⟩ := h.alone hp (by rw [hw]; nofun)
    · rw [Positions, show p.countBootstrap.gate = .opening from hp]
      exact ⟨l, _, r, rfl, hj, .inr ⟨rfl, congrArg Nat.succ hzero⟩, hrest⟩
    · rw [hphase] at hw
      cases hw
  | install hj hw =>
    obtain ⟨⟨hphase, -⟩ | ⟨-, hone⟩, hrest⟩ :=
      h.alone (h.gate_of_phase (.inr hw)) (by rw [hw]; nofun)
    · rw [hphase] at hw
      cases hw
    · exact (positions_of_opened rfl).mpr ⟨hone, hall (fun x hx => .inl (hrest x hx)) (.inr rfl)⟩
  | draw hj hw =>
    have hp := h.gate_of_admitted hw
    obtain ⟨hone, hphase⟩ := (positions_of_opened hp).mp h
    exact (positions_of_opened hp).mpr ⟨hone, hall (hothers hphase) (.inl rfl)⟩
  | read hj hw =>
    have hp := h.gate_of_admitted hw
    obtain ⟨hone, hphase⟩ := (positions_of_opened hp).mp h
    exact (positions_of_opened hp).mpr ⟨hone, hall (hothers hphase) (.inl rfl)⟩

/-! ## What was handed out -/

/-- Whether the numbers handed out are the first ones, each thread has got its own in ascending
order, and none was handed out before the platform was there. -/
structure Counted (c : Crowd) : Prop where
  early : c.platform.gate ≠ .opened → c.platform.issued = 0
  numbers : c.drawn.Perm (List.range' 1 c.platform.issued)
  rising : ∀ w ∈ c.workers, w.drawn.Pairwise (· > ·)

theorem counted_gather (jobs : List (List Job)) : (gather .absent jobs).Counted := by
  have hnone : ∀ w ∈ (gather .absent jobs).workers, w.drawn = [] := by
    intro w hw
    obtain ⟨js, -, rfl⟩ := List.mem_map.mp hw
    rfl
  refine ⟨fun _ => rfl, ?_, fun w hw => ?_⟩
  · rw [drawn, List.flatMap_eq_nil_iff.mpr hnone]
    exact .refl _
  · rw [hnone w hw]
    exact .nil

/-- The platform knows how many numbers were handed out. -/
theorem Counted.issued_eq (h : c.Counted) : c.platform.issued = c.drawn.length := by
  rw [h.numbers.length_eq, List.length_range']

/-- A thread that draws nothing leaves what was handed out as it is. -/
theorem drawn_of_eq {l r : List Worker} (hu : u.drawn = w.drawn) :
    drawn ⟨q, l ++ u :: r⟩ = drawn ⟨p, l ++ w :: r⟩ := by
  simp only [drawn, List.flatMap_append, List.flatMap_cons, hu]

/-- What a thread draws is handed out besides what was. -/
theorem drawn_cons {l r : List Worker} {n : Nat} (hu : u.drawn = n :: w.drawn) :
    (drawn ⟨q, l ++ u :: r⟩).Perm (n :: drawn ⟨p, l ++ w :: r⟩) := by
  simp only [drawn, List.flatMap_append, List.flatMap_cons, hu, List.cons_append]
  exact List.perm_middle

theorem Counted.of_eq {l r : List Worker} (h : Counted ⟨p, l ++ w :: r⟩)
    (hissued : q.issued = p.issued) (hgate : q.gate ≠ .opened → p.gate ≠ .opened)
    (hu : u.drawn = w.drawn) : Counted ⟨q, l ++ u :: r⟩ := by
  have hw := h.rising w (List.mem_append_right l List.mem_cons_self)
  refine ⟨fun hq => hissued.trans (h.early (hgate hq)), ?_, fun x hx => ?_⟩
  · rw [hissued, drawn_of_eq hu]
    exact h.numbers
  · rcases List.mem_cons.mp (List.perm_middle.mem_iff.mp hx) with rfl | hx
    · rwa [hu]
    · exact h.rising x (List.perm_middle.mem_iff.mpr (List.mem_cons_of_mem _ hx))

/-- **One step of one thread** hands out the next number, or none. -/
theorem Counted.step {l r : List Worker} (hm : Moves p w q u)
    (hpos : Positions ⟨p, l ++ w :: r⟩) (h : Counted ⟨p, l ++ w :: r⟩) :
    Counted ⟨q, l ++ u :: r⟩ := by
  cases hm with
  | idle => exact h
  | wait => exact h
  | begin hj hw hp => exact h.of_eq rfl (fun _ hopen => by rw [hp] at hopen; cases hopen) rfl
  | pass => exact h.of_eq rfl id rfl
  | countBootstrap => exact h.of_eq rfl id rfl
  | install hj hw =>
    have hshut : p.gate ≠ .opened := by
      rw [hpos.gate_of_phase (.inr hw)]
      nofun
    exact h.of_eq (h.early hshut).symm (fun hq => absurd rfl hq) rfl
  | @draw rest hj hw =>
    have hmem : w ∈ l ++ w :: r := List.mem_append_right l List.mem_cons_self
    refine ⟨fun hq => absurd (hpos.gate_of_admitted hw) hq, ?_, fun x hx => ?_⟩
    · have hrange : List.range' 1 (p.issued + 1) = List.range' 1 p.issued ++ [p.issued + 1] := by
        rw [List.range'_concat, Nat.one_mul, Nat.add_comm]
      refine (drawn_cons (w := w) (p := p) rfl).trans ?_
      rw [show p.draw.1.issued = p.issued + 1 from rfl, hrange]
      exact (h.numbers.cons _).trans (List.perm_append_singleton _ _).symm
    · rcases List.mem_cons.mp (List.perm_middle.mem_iff.mp hx) with rfl | hx
      · -- All numbers handed out so far are at most as many as there are.
        refine List.pairwise_cons.mpr ⟨fun n hn => ?_, h.rising w hmem⟩
        have hdrawn : n ∈ drawn ⟨p, l ++ w :: r⟩ := List.mem_flatMap.mpr ⟨w, hmem, hn⟩
        have hle : 1 ≤ n ∧ n < 1 + p.issued :=
          List.mem_range'_1.mp (h.numbers.mem_iff.mp hdrawn)
        show n < p.issued + 1
        omega
      · exact h.rising x (List.perm_middle.mem_iff.mpr (List.mem_cons_of_mem _ hx))
  | read => exact h.of_eq rfl id rfl

/-! ## Nobody waits for ever -/

/-- How many of the steps of a job are behind a thread. -/
def ofPhase : Phase → Nat
  | .arriving => 0
  | .settingUp => 1
  | .installing => 2
  | .admitted => 3

/-- A bound on the steps a thread has still to take, waiting apart. -/
def ahead (w : Worker) : Nat := 5 * w.jobs.length - ofPhase w.phase

/-- A bound on the steps some threads have still to take, waiting apart. -/
def aheadOf : List Worker → Nat
  | [] => 0
  | w :: ws => ahead w + aheadOf ws

def left (c : Crowd) : Nat := aheadOf c.workers

theorem aheadOf_append (l r : List Worker) : aheadOf (l ++ r) = aheadOf l + aheadOf r := by
  induction l with
  | nil => exact (Nat.zero_add _).symm
  | cons w l ih => rw [List.cons_append, aheadOf, aheadOf, ih, Nat.add_assoc]

/-- A thread that neither waits nor is done gets on. -/
theorem Moves.ahead_lt (hm : Moves p w q u) (hj : w.jobs ≠ [])
    (hw : w.phase = .arriving → p.gate ≠ .opening) : ahead u < ahead w := by
  have hpos := List.length_pos_iff.mpr hj
  cases hm with
  | idle h => exact absurd h hj
  | wait harriving hp => exact absurd hp (hw harriving)
  | begin _ hphase => simp only [ahead, hphase, ofPhase]; omega
  | pass _ hphase => simp only [ahead, hphase, ofPhase]; omega
  | countBootstrap _ hphase => simp only [ahead, hphase, ofPhase]; omega
  | install _ hphase => simp only [ahead, hphase, ofPhase]; omega
  | draw h hphase => simp only [ahead, hphase, h, ofPhase, List.length_cons]; omega
  | read h hphase => simp only [ahead, hphase, h, ofPhase, List.length_cons]; omega

/-- A thread that is not done and would not wait brings all of them on. -/
theorem left_step_lt {l r : List Worker} (hws : c.workers = l ++ w :: r) (hj : w.jobs ≠ [])
    (hw : w.phase = .arriving → c.platform.gate ≠ .opening) : (c.step l.length).left < c.left := by
  have hget : c.workers[l.length]? = some w := by
    rw [hws, List.getElem?_append_right (le_refl _), Nat.sub_self]
    rfl
  have hset : c.workers.set l.length (move c.platform w).2 = l ++ (move c.platform w).2 :: r := by
    rw [hws, List.set_append_right _ _ (le_refl _), Nat.sub_self]
    rfl
  have hlt := (moves c.platform w).ahead_lt hj hw
  rw [step, hget]
  dsimp only
  rw [left, left, hset, hws, aheadOf_append, aheadOf_append, aheadOf, aheadOf]
  omega

/-- As long as there is something to do, there is a thread that can do it. -/
theorem Positions.progress (h : c.Positions) (hw : w ∈ c.workers) (hj : w.jobs ≠ []) :
    ∃ t, (c.step t).left < c.left := by
  cases hp : c.platform.gate with
  | opening =>
    rw [Positions, hp] at h
    obtain ⟨l, x, r, hws, hx, hphase, -⟩ := h
    refine ⟨l.length, left_step_lt hws hx fun harriving => ?_⟩
    rcases hphase with ⟨hphase, -⟩ | ⟨hphase, -⟩ <;> (rw [harriving] at hphase; cases hphase)
  | shut =>
    obtain ⟨l, r, hws⟩ := List.append_of_mem hw
    exact ⟨l.length, left_step_lt hws hj fun _ => by rw [hp]; nofun⟩
  | opened =>
    obtain ⟨l, r, hws⟩ := List.append_of_mem hw
    exact ⟨l.length, left_step_lt hws hj fun _ => by rw [hp]; nofun⟩

/-! ## One thread alone -/

/-- **A thread that is alone** with a job that makes an instance is done in four steps, and has done
what `Platform.enrol` does. -/
theorem run_alone (p : Platform) (hp : p.gate ≠ .opening) :
    (gather p [[.create]]).run [0, 0, 0, 0] = ⟨p.enrol.1, [⟨.arriving, [], [p.enrol.2], []⟩]⟩ := by
  obtain ⟨gate, bootstraps, issued⟩ := p
  cases gate with
  | shut => rfl
  | opening => exact absurd rfl hp
  | opened => rfl

end Crowd

/-! ## All threads together -/

/-- What threads at a platform can count on. -/
structure Enrolment (c : Crowd) : Prop where
  /-- The platform is set up once at most, -/
  once : c.platform.bootstraps ≤ 1
  /-- and exactly once, and to the end, when a number has been handed out. -/
  setUp : c.drawn ≠ [] → c.platform.bootstraps = 1 ∧ c.platform.gate = .opened
  /-- No number is handed out twice. -/
  distinct : c.drawn.Nodup
  /-- Those handed out are the first ones. -/
  numbers : c.drawn.Perm (List.range' 1 c.drawn.length)
  /-- A thread gets its own in ascending order: they are listed latest first. -/
  rising : ∀ w ∈ c.workers, w.drawn.Pairwise (· > ·)
  /-- The platform knows at any moment how many were handed out, -/
  issued : c.platform.issued = c.drawn.length
  /-- and a thread that asks for it then is told. -/
  counts : ∀ t w rest, c.workers[t]? = some w → w.phase = .admitted → w.jobs = .count :: rest →
    c.step t =
      ⟨c.platform, c.workers.set t ⟨.arriving, rest, w.drawn, c.drawn.length :: w.counts⟩⟩
  /-- One that makes an instance gets the next number. -/
  next : ∀ t w rest, c.workers[t]? = some w → w.phase = .admitted → w.jobs = .create :: rest →
    (c.step t).workers[t]? = some ⟨.arriving, rest, (c.drawn.length + 1) :: w.drawn, w.counts⟩
  /-- All waiting comes to an end: whatever has happened so far, everything can be done. -/
  finishes : ∃ schedule, ∀ w ∈ (c.run schedule).workers, w.jobs = []

/-- From where everybody is in place, there is a schedule that gets everything done. -/
theorem Crowd.Positions.finishes {c : Crowd} (h : c.Positions) :
    ∃ schedule, ∀ w ∈ (c.run schedule).workers, w.jobs = [] := by
  induction hn : c.left using Nat.strong_induction_on generalizing c with
  | _ n ih =>
    by_cases hdone : ∀ w ∈ c.workers, w.jobs = []
    · exact ⟨[], hdone⟩
    · obtain ⟨w, hdone⟩ := not_forall.mp hdone
      obtain ⟨hw, hj⟩ := Classical.not_imp.mp hdone
      obtain ⟨t, ht⟩ := h.progress hw hj
      have hnext : (c.step t).Positions := run_keeps (P := Positions) h Positions.step [t]
      obtain ⟨schedule, hs⟩ := ih _ (hn ▸ ht) hnext rfl
      exact ⟨t :: schedule, hs⟩

theorem Crowd.Counted.enrolment {c : Crowd} (h : c.Counted) (hpos : c.Positions) :
    Enrolment c := by
  have hissued := h.issued_eq
  constructor
  case once =>
    cases hp : c.platform.gate with
    | shut => exact (((positions_of_shut hp).mp hpos).1 ▸ Nat.zero_le 1)
    | opened => exact (((positions_of_opened hp).mp hpos).1 ▸ Nat.le_refl 1)
    | opening =>
      rw [Positions, hp] at hpos
      obtain ⟨-, -, -, -, -, ⟨-, hn⟩ | ⟨-, hn⟩, -⟩ := hpos
      · exact hn ▸ Nat.zero_le 1
      · exact hn ▸ Nat.le_refl 1
  case setUp =>
    intro hdrawn
    have hp : c.platform.gate = .opened := by
      by_contra hp
      rw [h.early hp] at hissued
      exact hdrawn (List.length_eq_zero_iff.mp hissued.symm)
    exact ⟨((positions_of_opened hp).mp hpos).1, hp⟩
  case distinct => exact h.numbers.nodup_iff.mpr (List.nodup_range' (s := 1))
  case numbers => exact hissued ▸ h.numbers
  case rising => exact h.rising
  case issued => exact hissued
  case counts =>
    intro t w rest hw hphase hj
    rw [Crowd.step, hw, ← hissued]
    simp only [move, hj, hphase]
  case next =>
    intro t w rest hw hphase hj
    have hlt := (List.getElem?_eq_some_iff.mp hw).1
    rw [Crowd.step, hw, ← hissued]
    simp only [move, hj, hphase, List.getElem?_set_self hlt]
    rfl
  case finishes => exact hpos.finishes

/-- **Threads at the platform.** Whatever the threads have to do and however their steps come, the
platform is set up once, and the numbers handed out are the first ones, each thread's own in
ascending order. Whoever asks how many there are is told how many were handed out before. -/
theorem enrolment_is_orderly (jobs : List (List Job)) (schedule : List Nat) :
    Enrolment ((Crowd.gather .absent jobs).run schedule) := by
  have hboth : ((Crowd.gather .absent jobs).run schedule).Positions
      ∧ ((Crowd.gather .absent jobs).run schedule).Counted :=
    Crowd.run_keeps (P := fun c => c.Positions ∧ c.Counted)
      ⟨Crowd.positions_gather jobs, Crowd.counted_gather jobs⟩
      (fun hm h => ⟨h.1.step hm, h.2.step hm h.1⟩) schedule
  exact hboth.2.enrolment hboth.1

/-- Three threads arrive before there is a platform: one sets it up, and two wait. -/
example : (Crowd.gather .absent [[.create], [.create, .create], [.count]]).run
    [1, 0, 2, 1, 0, 1, 0, 2, 0, 2, 1, 1, 1] =
      ⟨⟨.opened, 1, 3⟩, [⟨.arriving, [], [1], []⟩, ⟨.arriving, [], [3, 2], []⟩,
        ⟨.arriving, [], [], [1]⟩]⟩ := by decide

end ScriptBoundary.Boundary
