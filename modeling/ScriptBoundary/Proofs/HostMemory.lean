import ScriptBoundary.Proofs.Teardown

/-!
# Host memory

Every registration stands for so many bytes of host memory, and each instance has an account of
them. A registration puts its bytes on the account and its retirement takes them off again. Taking
off cuts at zero, so an account that had gone wrong would not show it: a registration that was
settled twice would leave the account as empty as it should be at the end.

So the account is tied to the table and not to its end: it is what the registrations in the table
come to (`CallbackTable.Balanced`). That is kept by each of the four ways in which a table changes,
and it leaves no room for a cut, since what is retired is in the table and its bytes are on the
account. A table that was emptied has nothing left on its account when that is settled, and what
comes after the end of an instance finds no registration that could be settled again.

The warning that bytes are outstanding is the only event that depends on the account. `Logs` says
of two worlds that nothing of the kind was logged between them.

## Main results

* `CallbackTable.keeps_balanced`: an account is what its registrations come to
* `Scene.Sound.table_step`: no move touches the table of an instance that has ended
* `host_memory_balances`: the accounts after every sequence of moves, and at the end of an instance
-/

namespace ScriptBoundary.Boundary

open Script (Anchor)

/-! ## Accounts -/

namespace CallbackTable

variable {t : CallbackTable} {id : Nat}

/-- Whether the account of a table is what the registrations in it come to. -/
def Balanced (t : CallbackTable) : Prop := t.externalBytes = registrationBytes * t.live

instance (t : CallbackTable) : Decidable t.Balanced := inferInstanceAs (Decidable (_ = _))

theorem live_eq_length_ids (t : CallbackTable) : t.live = t.ids.length := by
  rw [live, ids, List.length_map]

/-- What is retired was in the table once, and is there no longer. -/
theorem live_retire (hn : t.ids.Nodup) (hid : id ∈ t.ids) : (t.retire id).live + 1 = t.live := by
  have hpos := List.length_pos_of_mem hid
  rw [live_eq_length_ids, live_eq_length_ids, ids_retire, ← hn.erase_eq_filter,
    List.length_erase_of_mem hid]
  omega

/-- **Nothing is cut** when a registration is retired: the account goes down by what it stands
for. -/
theorem Balanced.externalBytes_retire (h : t.Balanced) (hid : id ∈ t.ids) :
    (t.retire id).externalBytes + registrationBytes = t.externalBytes := by
  have hpos : 1 ≤ t.live := by
    rw [live_eq_length_ids]
    exact List.length_pos_of_mem hid
  have hcovered : registrationBytes * 1 ≤ t.externalBytes :=
    h ▸ Nat.mul_le_mul_left registrationBytes hpos
  rw [Nat.mul_one] at hcovered
  exact Nat.sub_add_cancel hcovered

/-- **The account of a table** is what its registrations come to. -/
theorem keeps_balanced : Keeps Balanced where
  empty := rfl
  register t r _ ht := by
    have hlive : (t.register r).live = t.live + 1 := List.length_append
    rw [Balanced, hlive, Nat.mul_succ, ← ht]
    rfl
  retire t id hn hid ht := by
    have hbytes := ht.externalBytes_retire hid
    have hlive := live_retire hn hid
    rw [ht, ← hlive, Nat.mul_succ] at hbytes
    exact Nat.add_right_cancel hbytes
  dispose t hempty _ := by
    have hnone : t.dispose.1.live = 0 := List.length_eq_zero_iff.mpr hempty
    rw [Balanced, hnone]
    rfl

theorem Balanced.externalBytes_of_empty (h : t.Balanced) (hempty : t.entries = []) :
    t.externalBytes = 0 := by
  rw [h, live, hempty]
  rfl

/-- Settling an account that is at zero changes nothing. -/
theorem dispose_of_zero (h : t.externalBytes = 0) : t.dispose.1 = t := by
  obtain ⟨entries, nextId, finalized, bytes⟩ := t
  obtain rfl : bytes = 0 := h
  rfl

end CallbackTable

/-! ## What is logged -/

/-- Whether an event is the warning that bytes were outstanding when an account was settled. -/
def Event.isOutstanding : Event → Bool
  | .outstanding .. => true
  | _ => false

namespace World

variable {w w' w'' : World} {i : InstanceId}

/-- Whether one world comes after another with no warning logged in between that bytes are
outstanding. -/
def Logs (w w' : World) : Prop :=
  ∃ l, w'.log.toList = w.log.toList ++ l ∧ ∀ e ∈ l, e.isOutstanding = false

theorem Logs.of_eq (h : w'.log = w.log) : w.Logs w' :=
  ⟨[], by rw [h, List.append_nil], fun _ hmem => absurd hmem List.not_mem_nil⟩

theorem Logs.trans (h : w.Logs w') (h' : w'.Logs w'') : w.Logs w'' := by
  obtain ⟨l, hl, hno⟩ := h
  obtain ⟨l', hl', hno'⟩ := h'
  refine ⟨l ++ l', by rw [hl', hl, List.append_assoc], fun e hmem => ?_⟩
  exact (List.mem_append.mp hmem).elim (hno e) (hno' e)

theorem logs_note {e : Event} (he : e.isOutstanding = false) : w.Logs (w.note e) :=
  ⟨[e], Array.toList_push, fun _ hmem => List.mem_singleton.mp hmem ▸ he⟩

theorem logs_dropCallback (w : World) (a : Anchor) (c : Callback) :
    w.Logs (w.dropCallback a c) := by
  cases c with
  | native name => exact .of_eq rfl
  | foreign target context =>
    rw [dropCallback]
    dsimp only
    split
    · exact (Logs.of_eq rfl).trans (logs_note rfl)
    · exact .of_eq rfl

theorem logs_retire (w : World) (a : Anchor) (c : Callback) : w.Logs (w.retire a c) := by
  have htable : w.Logs (w.updateTable a.owner fun t => t.retire a.id) := .of_eq rfl
  cases hrun : w.isRunning a with
  | true =>
    rw [retire_of_running hrun]
    exact .of_eq rfl
  | false =>
    rw [retire_of_idle hrun]
    exact htable.trans (logs_dropCallback _ a c)

theorem logs_finalize (w : World) (a : Anchor) : w.Logs (w.finalize a) := by
  rw [finalize]
  split
  · exact .of_eq rfl
  · exact (logs_note rfl).trans (logs_retire _ a _)

theorem logs_finalizes (w : World) (as : List Anchor) : w.Logs (as.foldl finalize w) := by
  induction as generalizing w with
  | nil => exact .of_eq rfl
  | cons a as ih => exact (logs_finalize w a).trans (ih _)

theorem logs_shut (w : World) (i : InstanceId) : w.Logs (w.shut i) := by
  have hall : ∀ (es : List (Nat × Registration)) (w : World), w.Logs (w.retireEach i es) := by
    intro es
    induction es with
    | nil => exact fun w => .of_eq rfl
    | cons e es ih => exact fun w => (logs_retire w _ _).trans (ih _)
  rw [shut, finalizeAll_eq_retireEach]
  exact (hall _ w).trans (.of_eq rfl)

/-- **The end of an instance whose account is at zero** logs no warning: the instance is shut, the
collector runs, and what is logged last is that nothing leaked. -/
theorem destroy_of_zero {x : Instance} (hx : w.live? i = some x)
    (hzero : ((w.finalizeAll i).table i).externalBytes = 0) :
    ∃ live, w.destroy i = (w.shut i).collect.note (.destroyed x.number x.table.live 0 live) := by
  have hleaked : (((w.finalizeAll i).instance? i).map (·.table.externalBytes)).getD 0 = 0 := by
    rw [table, desk] at hzero
    cases hy : (w.finalizeAll i).instance? i with
    | none => rfl
    | some y =>
      rw [hy] at hzero
      exact hzero
  rw [destroy, hx]
  simp only [hleaked, if_true]
  exact ⟨_, rfl⟩

end World

/-! ## After the end -/

/-- No change touches the table of an instance that has ended, if its account is at zero. -/
theorem Account.table_change {made : InstanceId → List Callback} {w w' : World} {x : Change}
    {i : InstanceId} (h : Account made w) (hx : x.apply w = some w') (hi : w.HasEnded i)
    (hzero : (w.table i).externalBytes = 0) : w'.table i = w.table i := by
  have hempty := h.closed i hi.isAlive
  obtain ⟨j, realm, cb, rfl, halive, rfl⟩ | hr := Change.register_or hx
  · have hji : j ≠ i := by
      rintro rfl
      exact (h.change_hasEnded hx hi).2 realm cb rfl
    obtain ⟨f, hcalls⟩ := World.register_eq halive realm cb
    rw [World.table_congr hcalls, World.table_enlisted halive, if_neg hji]
  · refine (h.change_keeps (P := fun u => u.table i = w.table i) rfl hx hr ?_ ?_ ?_ ?_).2
    · exact fun u u' hcalls hu => (World.table_congr hcalls i).trans hu
    · exact fun u limits _ hu => (World.table_newInstance u limits i).trans hu
    · intro u a cb hmem hu
      have hai : a.owner ≠ i := by
        rintro rfl
        obtain ⟨-, r, he, -⟩ := World.mem_entered.mp hmem
        rw [hu, hempty] at he
        cases he
      rw [World.table_retire hmem, if_neg hai, hu]
    · intro u j hu
      rw [World.table_close]
      split
      · rw [hu, CallbackTable.dispose_of_zero hzero]
      · exact hu

namespace Scene

variable {ms ns : List Move} {c d : Scene} {m : Move} {i : InstanceId}

/-- **No move touches the table of an instance that has ended**, if its account is at zero. -/
theorem Sound.table_step (h : c.Sound ms) (hm : c.step m = some d) (hi : c.world.HasEnded i)
    (hzero : (c.world.table i).externalBytes = 0) : d.world.table i = c.world.table i := by
  cases Scene.stepped hm with
  | change hx => exact h.account.table_change hx hi hzero
  | beginLent => rfl
  | beginOwn => exact World.table_borrow _ _ i
  | finishLent => rfl
  | finishOwn => exact World.table_giveBack _ _ i
  | enter => exact World.table_enter _ _ i
  | leave => exact World.table_leave _ _ _ i

/-- **No run touches the table of an instance that has ended**, if its account is at zero. -/
theorem Sound.table_run (h : c.Sound ms) (hr : c.run ns = some d) (hi : c.world.HasEnded i)
    (hzero : (c.world.table i).externalBytes = 0) : d.world.table i = c.world.table i := by
  refine (Scene.run_induction (P := fun ns d => (d.Sound (ms ++ ns) ∧ d.world.HasEnded i)
      ∧ d.world.table i = c.world.table i) ⟨⟨by rwa [List.append_nil], hi⟩, rfl⟩ ?_ hr).2
  rintro ns d m e ⟨⟨hsound, hended⟩, htable⟩ hm
  refine ⟨⟨?_, (hsound.step_hasEnded hm hended).1⟩, ?_⟩
  · rw [← List.append_assoc]
    exact (hsound.step hm).1
  · rw [hsound.table_step hm hended (htable ▸ hzero), htable]

end Scene

/-! ## What the accounts say -/

/-- What the accounts of host memory say, once some moves have led to a scene. -/
structure HostMemory (ms : List Move) (c : Scene) : Prop where
  /-- The account of an instance is what the registrations in its table come to. -/
  balanced : ∀ i,
    (c.world.table i).externalBytes = registrationBytes * (c.world.table i).entries.length
  /-- With what was taken off for those that were finalized, it is what all that there ever were
  come to. -/
  conserved : ∀ i, (c.world.table i).externalBytes +
    registrationBytes * (c.world.table i).finalized =
      registrationBytes * (registrations ms i).length
  /-- A retirement finds on the account what it takes off, so nothing is cut. -/
  covered : ∀ a cb, (a, cb) ∈ c.world.entered a.owner →
    ((c.world.retire a cb).table a.owner).externalBytes + registrationBytes =
      (c.world.table a.owner).externalBytes
  /-- So it is when an instance ends, with the registrations in `gone` retired and those in `rest`
  still to come, -/
  midway : ∀ i gone rest, (c.world.table i).entries = gone ++ rest →
    ((c.world.retireEach i gone).table i).entries = rest
      ∧ ((c.world.retireEach i gone).table i).externalBytes = registrationBytes * rest.length
  /-- and when all are retired, there is nothing on the account that is settled then. -/
  settled : ∀ i, ((c.world.finalizeAll i).table i).dispose.2 = 0
  /-- The end of an instance reports that nothing has leaked, and warns of nothing. -/
  quiet : ∀ i x, c.world.live? i = some x → c.world.Logs (c.world.destroy i)
    ∧ ∃ live, (c.world.destroy i).log.back? = some (.destroyed x.number x.table.live 0 live)
  /-- From then on the table and its account stay as they are, through the pass that follows -/
  pass : ∀ i, c.world.isAlive i = true →
    (c.world.destroy i).table i = (c.world.shut i).table i
      ∧ ((c.world.shut i).table i).externalBytes = 0
  /-- and whatever else happens. -/
  after : ∀ i, c.world.isAlive i = true → ∀ ns d,
    Scene.run ⟨c.world.shut i, c.stack⟩ ns = some d →
      d.world.table i = (c.world.shut i).table i

section HostMemory

variable {w : World} {i : InstanceId}

/-- Retiring some registrations of a table leaves the others and their bytes. -/
theorem World.retireEach_balanced {gone rest : List (Nat × Registration)}
    (hn : (w.table i).ids.Nodup) (hb : (w.table i).Balanced)
    (hsplit : (w.table i).entries = gone ++ rest) :
    ((w.retireEach i gone).table i).entries = rest
      ∧ ((w.retireEach i gone).table i).Balanced := by
  induction gone generalizing w with
  | nil => exact ⟨hsplit, hb⟩
  | cons e gone ih =>
    have hmem : ((⟨i, e.1⟩ : Anchor), e.2.callback) ∈ w.entered i :=
      World.mem_entered.mpr ⟨rfl, e.2, hsplit ▸ List.mem_cons_self, rfl⟩
    have hid : e.1 ∈ (w.table i).ids := List.mem_map_of_mem (hsplit ▸ List.mem_cons_self)
    have htable : (w.retire ⟨i, e.1⟩ e.2.callback).table i = (w.table i).retire e.1 := by
      rw [World.table_retire hmem, if_pos rfl]
    have hfresh : e.1 ∉ (gone ++ rest).map (·.1) := by
      rw [CallbackTable.ids, hsplit] at hn
      exact (List.nodup_cons.mp hn).1
    refine ih (w := w.retire ⟨i, e.1⟩ e.2.callback) ?_ ?_ ?_
    · rw [htable, CallbackTable.ids_retire]
      exact hn.filter _
    · rw [htable]
      exact CallbackTable.keeps_balanced.retire _ _ hn hid hb
    · rw [htable, CallbackTable.retire, hsplit]
      simp only [List.cons_append, List.filter_cons, bne_self_eq_false, Bool.false_eq_true,
        if_false]
      refine List.filter_eq_self.mpr fun e' he' => bne_iff_ne.mpr fun heq => ?_
      exact hfresh (heq ▸ List.mem_map_of_mem he')

end HostMemory

/-- **The accounts of host memory** in a scene that moves lead to. -/
theorem Scene.hostMemory_of_run {p : Platform} {ms : List Move} {c : Scene}
    (hrun : (Scene.start p).run ms = some c) : HostMemory ms c := by
  have hsound := Scene.sound_run hrun
  have hbalanced := Scene.tables_run CallbackTable.keeps_balanced hrun
  have hn := hsound.account.ids_nodup
  have hstage : ∀ i gone rest, (c.world.table i).entries = gone ++ rest →
      ((c.world.retireEach i gone).table i).entries = rest
        ∧ ((c.world.retireEach i gone).table i).Balanced :=
    fun i gone rest hsplit => World.retireEach_balanced (hn i) (hbalanced i) hsplit
  have hzero : ∀ i, ((c.world.finalizeAll i).table i).externalBytes = 0 := by
    intro i
    obtain ⟨hempty, hb⟩ := hstage i _ [] (List.append_nil _).symm
    rw [World.finalizeAll_eq_retireEach]
    exact hb.externalBytes_of_empty hempty
  have hshut : ∀ i, c.world.isAlive i = true →
      Scene.Sound (ms ++ [.change (.shut i)]) ⟨c.world.shut i, c.stack⟩ := by
    intro i halive
    refine (hsound.step ?_).1
    simp [Scene.step, Change.apply, halive]
  have hdisposed : ∀ i, ((c.world.shut i).table i).externalBytes = 0 := by
    intro i
    rw [World.shut, World.table_close, if_pos rfl]
    rfl
  have hafter : ∀ i, c.world.isAlive i = true → ∀ ns d,
      Scene.run ⟨c.world.shut i, c.stack⟩ ns = some d →
        d.world.table i = (c.world.shut i).table i :=
    fun i halive ns d hns => (hshut i halive).table_run hns (.shut halive) (hdisposed i)
  constructor
  case balanced => exact hbalanced
  case conserved =>
    intro i
    rw [hbalanced i, ← hsound.account.census i, Nat.mul_add]
  case covered =>
    intro a cb hmem
    obtain ⟨-, r, he, -⟩ := World.mem_entered.mp hmem
    rw [World.table_retire hmem, if_pos rfl]
    exact (hbalanced a.owner).externalBytes_retire (List.mem_map_of_mem he)
  case midway =>
    intro i gone rest hsplit
    obtain ⟨hleft, hb⟩ := hstage i gone rest hsplit
    rw [hb, CallbackTable.live, hleft]
    exact ⟨rfl, rfl⟩
  case settled => exact hzero
  case quiet =>
    intro i x hx
    obtain ⟨live, hdestroy⟩ := World.destroy_of_zero hx (hzero i)
    rw [hdestroy]
    exact ⟨((World.logs_shut _ i).trans (World.logs_finalizes _ _)).trans (World.logs_note rfl),
      live, Array.back?_push ..⟩
  case pass =>
    intro i halive
    obtain ⟨x, hx⟩ := Option.isSome_iff_exists.mp (World.isAlive_eq_isSome_live? ▸ halive)
    have hpath : Path True ⟨c.world.shut i, c.stack⟩ ⟨c.world.destroy i, c.stack⟩ := .settle hx
    obtain ⟨ns, -, hns⟩ := hpath
    exact ⟨hafter i halive ns _ hns, hdisposed i⟩
  case after => exact hafter

/-- **The accounts of host memory balance.** In every scene that moves lead to, whatever was
registered, collected and nested on the way, the account of each instance is what its registrations
come to. No retirement takes off more than there is, nothing is left when an account is settled, and
nothing moves it afterwards. What the interpreter does, at any depth, is done by moves. -/
theorem host_memory_balances (p : Platform) :
    (∀ ms c, (Scene.start p).run ms = some c → HostMemory ms c) ∧ ∀ c : Scene, c.Follows :=
  ⟨fun _ _ h => Scene.hostMemory_of_run h, Scene.follows⟩

/-- Two registrations, the second one made while the first callback runs, and a pass that finalizes
the first meanwhile: one registration is on the account then, and none is when the instance ends. -/
theorem one_of_two_on_the_account :
    ∃ c, (Scene.start .ready).run
        [.change (.newInstance default), .change (.register 0 0 (.native 7)), .begin 0,
          .enter ⟨⟨0, 1⟩, default⟩, .begin 0, .change (.register 0 0 (.native 8)), .finish,
          .change (.finalize ⟨0, 1⟩), .leave, .finish] = some c
      ∧ (c.world.table 0).externalBytes = registrationBytes * 1
      ∧ (c.world.table 0).externalBytes + registrationBytes * 1 = registrationBytes * 2
      ∧ ((c.world.shut 0).table 0).externalBytes = 0 := by
  have hmemory := (host_memory_balances .ready).1
    [.change (.newInstance default), .change (.register 0 0 (.native 7)), .begin 0,
      .enter ⟨⟨0, 1⟩, default⟩, .begin 0, .change (.register 0 0 (.native 8)), .finish,
      .change (.finalize ⟨0, 1⟩), .leave, .finish] _ rfl
  exact ⟨_, rfl, hmemory.balanced 0, hmemory.conserved 0, (hmemory.pass 0 rfl).2⟩

end ScriptBoundary.Boundary
