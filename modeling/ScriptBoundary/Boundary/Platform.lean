/-!
# The platform

What all instances of a process share: it is set up once, when the first instance is made, and it
numbers the instances from one.

Threads may make instances at the same time. So there is a gate in front of the platform: the
first thread to arrive sets the platform up, and whoever arrives meanwhile waits. Behind the gate,
drawing a number is one indivisible step, and so is looking how many were drawn. `Crowd.step` is one
step of one thread, and a schedule is any list of threads; `Platform.enrol` is what a thread does
that makes an instance when nobody else is there.

The counters are natural numbers. On a machine they are words of 64 bits, and a process that counts
one by one does not live to see one of them overflow.
-/

namespace ScriptBoundary.Boundary

/-- Whether the platform has been set up. -/
inductive Gate where
  | shut
  /-- Some thread is setting it up. -/
  | opening
  | opened
deriving DecidableEq, Repr, Inhabited

structure Platform where
  gate : Gate
  /-- How often it was set up. -/
  bootstraps : Nat
  /-- How many numbers were drawn. -/
  issued : Nat
deriving DecidableEq, Repr, Inhabited

namespace Platform

/-- Before the first instance. -/
def absent : Platform := ⟨.shut, 0, 0⟩

/-- Set up, and no instance made. -/
def ready : Platform := ⟨.opened, 1, 0⟩

/-- The setting up is counted when it begins. -/
def countBootstrap (p : Platform) : Platform := { p with bootstraps := p.bootstraps + 1 }

/-- The platform is there, and no number has been drawn from it. -/
def install (p : Platform) : Platform := { p with gate := .opened, issued := 0 }

def bootstrap (p : Platform) : Platform := p.countBootstrap.install

/-- Draws the next number. -/
def draw (p : Platform) : Platform × Nat := ({ p with issued := p.issued + 1 }, p.issued + 1)

/-- Draws the next number, setting the platform up first if need be. -/
def enrol (p : Platform) : Platform × Nat := (if p.gate = .opened then p else p.bootstrap).draw

/-- The version the platform reports. -/
def version : String := "0.2.0"

end Platform

/-- What a thread needs the platform for. -/
inductive Job where
  /-- It makes an instance. -/
  | create
  /-- It asks how many instances were made. -/
  | count
deriving DecidableEq, Repr, Inhabited

/-- How far a thread has got with its job. -/
inductive Phase where
  /-- It is before the gate. -/
  | arriving
  /-- It has found the gate shut and sets the platform up. -/
  | settingUp
  /-- It has counted the setting up. -/
  | installing
  /-- It is behind the gate. -/
  | admitted
deriving DecidableEq, Repr, Inhabited

/-- A thread with jobs at the platform. -/
structure Worker where
  phase : Phase
  /-- What it has still to do. -/
  jobs : List Job
  /-- The numbers it has drawn, latest first. -/
  drawn : List Nat
  /-- The counts it has read, latest first. -/
  counts : List Nat
deriving DecidableEq, Repr, Inhabited

namespace Worker

/-- A thread that has yet to do its jobs. -/
def ofJobs (js : List Job) : Worker := ⟨.arriving, js, [], []⟩

end Worker

/-- Threads in front of one platform. -/
structure Crowd where
  platform : Platform
  workers : List Worker
deriving DecidableEq, Repr, Inhabited

namespace Crowd

/-- Threads that have yet to do their jobs. -/
def gather (p : Platform) (jobs : List (List Job)) : Crowd :=
  ⟨p, jobs.map Worker.ofJobs⟩

/-- One step of a thread, with the platform it leaves. A thread that waits at the gate stays where
it is, and so does one that has no job left. -/
def move (p : Platform) (w : Worker) : Platform × Worker :=
  match w.jobs with
  | [] => (p, w)
  | job :: rest =>
    match w.phase with
    | .arriving =>
      match p.gate with
      | .shut => ({ p with gate := .opening }, { w with phase := .settingUp })
      | .opening => (p, w)
      | .opened => (p, { w with phase := .admitted })
    | .settingUp => (p.countBootstrap, { w with phase := .installing })
    | .installing => (p.install, { w with phase := .admitted })
    | .admitted =>
      match job with
      | .create => (p.draw.1, ⟨.arriving, rest, p.draw.2 :: w.drawn, w.counts⟩)
      | .count => (p, ⟨.arriving, rest, w.drawn, p.issued :: w.counts⟩)

/-- One step of one thread. -/
def step (c : Crowd) (t : Nat) : Crowd :=
  match c.workers[t]? with
  | none => c
  | some w => ⟨(move c.platform w).1, c.workers.set t (move c.platform w).2⟩

/-- The steps of a schedule, one after the other. -/
def run (c : Crowd) (schedule : List Nat) : Crowd := schedule.foldl step c

/-- A schedule in which each of `n` threads takes its turn `rounds` times. -/
def turns (n rounds : Nat) : List Nat := (List.replicate rounds (List.range n)).flatten

/-- What becomes of a platform when `n` threads make one instance each. -/
def ofThreads (p : Platform) (n : Nat) : Crowd :=
  (gather p (List.replicate n [.create])).run (turns n 4)

end Crowd

end ScriptBoundary.Boundary
