import ScriptBoundary.Proofs.Distinct

/-!
# Names that are listed again

A walk up the prototypes asks each object twice: which of its names are enumerable, and which names
it has. The first answer is listed, less the names that nearer objects have; the second one hides
names of the objects further up. So a name that is listed is hidden further up only if the object
says once more that it has it. An ordinary object does. A proxy may deny it, and then the name is
listed again for the next object that has it, and once more if that is a proxy that denies it too.

What a walk lists is therefore not without repetitions in general, and how often a name comes can be
read off the answers: `Reply.count_gathered`. The names themselves are the right ones, and where
they first come they come in the right order: `Reply.eraseDups_gathered`.

A level is whatever an object has answered, and `Walks` relates a walk to its levels. Between two
questions any script may run, so each question has its own state, and nothing is asked of the levels
but that the questions came to an end. Within one answer no name comes twice, by `Distinct`.

## Main results

* `Walks.leads`: what a walk lists, whatever the objects answer
* `Walks.listed_subset`: an ordinary object has the names that it lists
* `names_come_as_often_as_listed`: how often a name comes, and what it takes for it to come again
* `denied_name_comes_twice`: a proxy that lists a name and denies it
-/

namespace ScriptBoundary.Boundary

open Script (Activation Comp Completion Failure Heap Ref)

/-! ## Answers -/

/-- What an object has answered when a walk asked it for its names. -/
structure Reply where
  object : Ref
  /-- Those that are enumerable. -/
  listed : List Text
  /-- All of them. -/
  all : List Text

namespace Reply

variable {seen seen' : List Text} {levels : List Reply} {name : Text}

/-- What a walk lists that has seen some names: on each level, what is listed there and has not been
seen. All names of the level are seen from then on. -/
def gathered (seen : List Text) : List Reply → List Text
  | [] => []
  | l :: levels =>
    l.listed.filter (fun t => !seen.contains t) ++ gathered (seen ++ l.all) levels

/-- What it would list if the listed names were seen as well: each name where it first comes. -/
def firstOnly (seen : List Text) : List Reply → List Text
  | [] => []
  | l :: levels =>
    l.listed.filter (fun t => !seen.contains t) ++ firstOnly (seen ++ l.listed ++ l.all) levels

/-- The levels on which a name is not hidden: those up to the first one that has it. -/
def upTo (name : Text) : List Reply → List Reply
  | [] => []
  | l :: levels => l :: if l.all.contains name then [] else upTo name levels

/-- **How often a name comes**: once for each level that lists it and on which it is not hidden. -/
theorem count_gathered (h : ∀ l ∈ levels, l.listed.Nodup) (seen : List Text) (name : Text) :
    (gathered seen levels).count name =
      if name ∈ seen then 0 else (upTo name levels).countP (·.listed.contains name) := by
  induction levels generalizing seen with
  | nil => split <;> rfl
  | cons l levels ih =>
    obtain ⟨hl, hlevels⟩ := List.forall_mem_cons.mp h
    rw [gathered, List.count_append, ih hlevels]
    by_cases hseen : name ∈ seen
    · have hnone : (l.listed.filter fun t => !seen.contains t).count name = 0 :=
        List.count_eq_zero.mpr fun hmem => by simpa [hseen] using (List.mem_filter.mp hmem).2
      rw [hnone, if_pos (List.mem_append_left _ hseen), if_pos hseen]
    · have hhere : (l.listed.filter fun t => !seen.contains t).count name =
          if l.listed.contains name then 1 else 0 := by
        rw [List.count_filter (by simpa using hseen), hl.count]
        simp
      rw [hhere, if_neg hseen, upTo, List.countP_cons, Nat.add_comm]
      by_cases hall : name ∈ l.all <;> simp [hseen, hall]

theorem firstOnly_congr (h : ∀ t, t ∈ seen ↔ t ∈ seen') (levels : List Reply) :
    firstOnly seen levels = firstOnly seen' levels := by
  induction levels generalizing seen seen' with
  | nil => rfl
  | cons l levels ih =>
    have hcontains : ∀ t, seen.contains t = seen'.contains t := fun t => by
      rw [Bool.eq_iff_iff, List.contains_iff_mem, List.contains_iff_mem, h t]
    have hnext : ∀ t, t ∈ seen ++ l.listed ++ l.all ↔ t ∈ seen' ++ l.listed ++ l.all := fun t => by
      simp only [List.mem_append, h t]
    rw [firstOnly, firstOnly, ih hnext]
    simp only [hcontains]

/-- Dropping repetitions while names are left out that were listed nearer. -/
theorem eraseDups_removeAll_gathered (h : ∀ l ∈ levels, l.listed.Nodup) (seen nearer : List Text) :
    ((gathered seen levels).removeAll nearer).eraseDups = firstOnly (seen ++ nearer) levels := by
  induction levels generalizing seen nearer with
  | nil => rfl
  | cons l levels ih =>
    obtain ⟨hl, hlevels⟩ := List.forall_mem_cons.mp h
    let here := l.listed.filter fun t => !(seen ++ nearer).contains t
    have hhere : (l.listed.filter fun t => !seen.contains t).removeAll nearer = here := by
      rw [List.removeAll, List.filter_filter]
      refine List.filter_congr fun t _ => ?_
      simp [Bool.and_comm]
    have hrest : ∀ xs : List Text, (xs.removeAll nearer).removeAll here =
        xs.removeAll (nearer ++ here) := fun xs => by
      rw [List.removeAll, List.removeAll, List.removeAll, List.filter_filter]
      refine List.filter_congr fun t _ => ?_
      simp [Bool.and_comm]
    have hsame : ∀ t, t ∈ seen ++ l.all ++ (nearer ++ here) ↔
        t ∈ seen ++ nearer ++ l.listed ++ l.all := fun t => by
      simp only [here, List.mem_append, List.mem_filter]
      by_cases hseen : t ∈ seen ++ nearer
      · have := List.mem_append.mp hseen
        tauto
      · simp [hseen]
        have := List.mem_append.not.mp hseen
        tauto
    have happend : ∀ xs ys : List Text, (xs ++ ys).removeAll nearer =
        xs.removeAll nearer ++ ys.removeAll nearer := fun _ _ => List.filter_append _ _
    rw [gathered, happend, hhere, List.eraseDups_append,
      (hl.filter _).eraseDups_eq, hrest, ih hlevels, firstOnly_congr hsame]
    rfl

/-- **Without the repetitions**, each name is where it first comes. -/
theorem eraseDups_gathered (h : ∀ l ∈ levels, l.listed.Nodup) :
    (gathered [] levels).eraseDups = firstOnly [] levels := by
  have hnone : (gathered [] levels).removeAll [] = gathered [] levels :=
    List.filter_eq_self.mpr fun _ _ => rfl
  have hall := eraseDups_removeAll_gathered h [] []
  rwa [hnone] at hall

/-- A name that comes again has been denied by a level that lists it. -/
theorem exists_denied (h : 1 < (upTo name levels).countP (·.listed.contains name)) :
    ∃ l ∈ levels, name ∈ l.listed ∧ name ∉ l.all := by
  induction levels with
  | nil => cases h
  | cons l levels ih =>
    rw [upTo, List.countP_cons] at h
    by_cases hall : name ∈ l.all
    · rw [if_pos (List.contains_iff_mem.mpr hall), List.countP_nil] at h
      split at h <;> omega
    · by_cases hlisted : name ∈ l.listed
      · exact ⟨l, List.mem_cons_self, hlisted, hall⟩
      · rw [if_neg (by simpa using hall), if_neg (by simpa using hlisted), Nat.add_zero] at h
        obtain ⟨m, hm, hdenied⟩ := ih h
        exact ⟨m, List.mem_cons_of_mem _ hm, hdenied⟩

end Reply

/-! ## The walk -/

section Walking

open Script.Comp

variable {σ : Type} {host : Host σ} {n : Nat} {act : Activation} {r : Ref} {s t u : State σ}
  {fuel : Nat} {replies : List Reply}

/-- Whether a walk from an object on, over so many levels at most, gets certain replies. Each level
has its two questions, and the next one is the prototype that the object was given. -/
inductive Walks (host : Host σ) (n : Nat) (act : Activation) :
    Nat → Ref → State σ → List Reply → State σ → Prop where
  /-- No level is left. -/
  | spent {r : Ref} {s : State σ} : Walks host n act 0 r s [] s
  /-- The object has no prototype. -/
  | last {fuel : Nat} {r : Ref} {s u v : State σ} {es ks : List (Ref × Script.Key × Text)}
      (he : (Script.Builtin.ownNames Script.machine (.object r) true).Leads host n act s
        (.value es) u)
      (hk : (Script.Builtin.ownNames Script.machine (.object r) false).Leads host n act u
        (.value ks) v)
      (hp : (v.world.heap.object r).proto = none) :
      Walks host n act (fuel + 1) r s [⟨r, es.map (·.2.2), ks.map (·.2.2)⟩] v
  /-- It has one. -/
  | next {fuel : Nat} {r p : Ref} {s u v t : State σ} {es ks : List (Ref × Script.Key × Text)}
      {replies : List Reply}
      (he : (Script.Builtin.ownNames Script.machine (.object r) true).Leads host n act s
        (.value es) u)
      (hk : (Script.Builtin.ownNames Script.machine (.object r) false).Leads host n act u
        (.value ks) v)
      (hp : (v.world.heap.object r).proto = some p) (hw : Walks host n act fuel p v replies t) :
      Walks host n act (fuel + 1) r s (⟨r, es.map (·.2.2), ks.map (·.2.2)⟩ :: replies) t

theorem listed_subset_of_leads {v : State σ} {es ks : List (Ref × Script.Key × Text)}
    (he : (Script.Builtin.ownNames Script.machine (.object r) true).Leads host n act s
      (.value es) u)
    (hk : (Script.Builtin.ownNames Script.machine (.object r) false).Leads host n act u
      (.value ks) v) (hv : v.world.heap.Evolves t.world.heap)
    (hr : (t.world.heap.object r).isOrdinary = true) : es.map (·.2.2) ⊆ ks.map (·.2.2) := by
  have hs : (s.world.heap.object r).isOrdinary = true :=
    (he.evolves.trans (hk.evolves.trans hv)).isOrdinary hr
  obtain ⟨hes, rfl⟩ := he.unique (Script.Builtin.gives_ownNames_enumerable hs).leads_same
  obtain ⟨hks, rfl⟩ := hk.unique (Script.Builtin.gives_ownNames hs).leads_same
  rw [Completion.value.inj hes, Completion.value.inj hks, Script.Builtin.map_named,
    Script.Builtin.map_named]
  exact fun t ht => Heap.mem_ownNames_of_enumerable ht

namespace Walks

/-- **What a walk lists**, whatever the objects reply. -/
theorem leads (hw : Walks host n act fuel r s replies t) (seen : List Text) :
    (Operation.namesFrom true fuel r seen).Leads host n act s
      (.value (Reply.gathered seen replies)) t := by
  induction hw generalizing seen with
  | spent => exact (gives_pure _).leads_same
  | last he hk hp =>
    refine he.bind (hk.bind ((gives_inspect _).leads_same.bind ?_))
    rw [hp, Reply.gathered, Reply.gathered, List.append_nil]
    exact (gives_pure _).leads_same
  | next he hk hp hw ih =>
    refine he.bind (hk.bind ((gives_inspect _).leads_same.bind ?_))
    rw [hp, Reply.gathered]
    exact (ih _).bind (gives_pure _).leads_same

theorem evolves (hw : Walks host n act fuel r s replies t) :
    s.world.heap.Evolves t.world.heap := by
  induction hw with
  | spent => exact .refl _
  | last he hk hp => exact he.evolves.trans hk.evolves
  | next he hk hp hw ih => exact he.evolves.trans (hk.evolves.trans ih)

/-- **Within a reply** no name comes twice. -/
theorem nodup_listed (hw : Walks host n act fuel r s replies t) :
    ∀ l ∈ replies, l.listed.Nodup := by
  induction hw with
  | spent => exact fun l hl => absurd hl List.not_mem_nil
  | last he hk hp =>
    have hhere := (Script.Builtin.yields_ownNames _ true).of_leads he
    exact List.forall_mem_singleton.mpr hhere
  | next he hk hp hw ih =>
    have hhere := (Script.Builtin.yields_ownNames _ true).of_leads he
    exact List.forall_mem_cons.mpr ⟨hhere, ih⟩

/-- **An ordinary object** has the names that it lists. -/
theorem listed_subset (hw : Walks host n act fuel r s replies t) : ∀ l ∈ replies,
    (t.world.heap.object l.object).isOrdinary = true → l.listed ⊆ l.all := by
  induction hw with
  | spent => exact fun l hl => absurd hl List.not_mem_nil
  | last he hk hp =>
    exact List.forall_mem_singleton.mpr (listed_subset_of_leads he hk (.refl _))
  | next he hk hp hw ih =>
    exact List.forall_mem_cons.mpr ⟨listed_subset_of_leads he hk hw.evolves, ih⟩

/-- **A name that comes again** has been listed and denied by a proxy. -/
theorem exists_denier (hw : Walks host n act fuel r s replies t) {name : Text}
    (h : 1 < (Reply.gathered [] replies).count name) : ∃ l ∈ replies, name ∈ l.listed ∧
      name ∉ l.all ∧ (t.world.heap.object l.object).isOrdinary = false := by
  rw [Reply.count_gathered hw.nodup_listed, if_neg List.not_mem_nil] at h
  obtain ⟨l, hl, hlisted, hdenied⟩ := Reply.exists_denied h
  exact ⟨l, hl, hlisted, hdenied, Bool.eq_false_iff.mpr fun hordinary =>
    hdenied (hw.listed_subset l hl hordinary hlisted)⟩

end Walks

end Walking

/-! ## Requests -/

/-- How the names come that a walk has gathered, and what it takes for one to come again. -/
structure ComeAsListed (replies : List Reply) (h : Heap) : Prop where
  /-- A name comes once for each level that lists it, up to the first level that has it when it is
  asked for all its names. -/
  often : ∀ name, (Reply.gathered [] replies).count name =
    (Reply.upTo name replies).countP (·.listed.contains name)
  /-- Without the repetitions, each name is where it first comes. -/
  first : (Reply.gathered [] replies).eraseDups = Reply.firstOnly [] replies
  /-- A name that comes again has been listed by a proxy that did not have it when it was asked for
  all its names, -/
  denied : ∀ name, 1 < (Reply.gathered [] replies).count name → ∃ l ∈ replies, name ∈ l.listed ∧
    name ∉ l.all ∧ (h.object l.object).isOrdinary = false
  /-- so where each level has the names that it lists, none does. -/
  once : (∀ l ∈ replies, l.listed ⊆ l.all) → (Reply.gathered [] replies).Nodup

/-- How a request for the names of an object and its prototypes is answered, by an operation that
gets a context, whatever the objects reply. -/
structure ListsReplies {σ : Type} (host : Host σ) (n : Nat) (s : State σ) (i : InstanceId)
    (act : Activation) (object : Handle) : Prop where
  /-- If the walk gets its replies, with the names gathered from them. -/
  listed : ∀ r t replies u, Opens host n act (s.world.referent object) (s.occupied i) r t →
    Walks host n (act.keeping [s.world.referent object]) (s.world.heap.cells.size + 2) r t
      replies u →
    ListedAs host n s i object true (Reply.gathered [] replies)
      ∧ ComeAsListed replies u.world.heap
  /-- If it fails, be it on the first level or further up, with no name. -/
  lost : ∀ (f : Failure) (u : State σ), (Operation.names (s.world.referent object) true).Leads host
    n act (s.occupied i) f.completion u → ListedAs host n s i object true []

section Requests

variable {σ : Type} {host : Host σ} {n : Nat} {act : Activation} {r : Ref} {s t : State σ}
  {fuel : Nat} {replies : List Reply}

theorem Walks.comeAsListed (hw : Walks host n act fuel r s replies t) :
    ComeAsListed replies t.world.heap where
  often name := by rw [Reply.count_gathered hw.nodup_listed, if_neg List.not_mem_nil]
  first := Reply.eraseDups_gathered hw.nodup_listed
  denied _ h := hw.exists_denier h
  once h := by
    refine List.nodup_iff_count_le_one.mpr fun name => ?_
    by_contra hmore
    obtain ⟨l, hl, hlisted, hdenied, -⟩ := hw.exists_denier (Nat.lt_of_not_le hmore)
    exact hdenied (h l hl hlisted)

end Requests

/-- **Names come as often as they are listed**, up to the level that has them. -/
theorem names_come_as_often_as_listed {σ : Type} (host : Host σ) (n : Nat) (s : State σ)
    (i : InstanceId) (act : Activation) (object : Handle)
    (hact : s.world.context? i = some act) : ListsReplies host n s i act object where
  listed r t replies u ho hw := by
    rw [← s.heap_occupied i] at hw
    exact ⟨listedAs_of_leads hact (Operation.leads_names ho (hw.leads [])), hw.comeAsListed⟩
  lost f u hn := listedAs_nil_of_leads hact hn

/-- A proxy for an object with a name `x`, made with a prototype that has this name too. Its handler
describes properties by a callback. There are handles of the callback, the proxy, the object, the
name, and an object that describes a property which is enumerable. -/
def denying : List Move :=
  let free : Script.Slot := .plain .undefined
  let yes : Script.Slot := .plain (.boolean true)
  [.change (.newInstance ⟨9, 9, 99⟩),
    .change (.edit (.newObject .plain none (.ofList [("x", free)]))),
    .change (.edit (.newObject .plain none (.ofList [("x", free)]))),
    .change (.edit (.newObject .plain none (.ofList [("enumerable", yes), ("configurable", yes)]))),
    .change (.register 0 257 (.native 7)),
    .change (.edit (.newObject .plain none
      (.ofList [("getOwnPropertyDescriptor", .plain (.object 261))]))),
    .change (.edit (.newObject (.proxy (some (258, 262)) false false) (some 259) ∅)),
    .change (.newHandle 0 (.object 263)), .change (.newHandle 0 (.object 258)),
    .change (.newHandle 0 (.text "x")), .change (.newHandle 0 (.object 260))]

/-- The callback takes the name from the object before it says that the property is enumerable. -/
def Host.remover : Host Unit where
  native _ i _ _ := do
    let _ ← Act.request (.remove i ⟨2⟩ (.composite .string ⟨3⟩))
    return ⟨.composite .object ⟨4⟩, false⟩
  wrapper _ _ _ this _ := pure ⟨this, 1⟩

/-- The texts under the first numbers of the object that a handle refers to. -/
def World.textsUnder (w : World) (h : Handle) (count : Nat) : List (Option Text) :=
  match w.referent h with
  | .object r => (List.range count).map fun n =>
    match w.heap.ownSlot? r (Script.Key.ofNat n) with
    | some ⟨.data (.text t) _, _, _⟩ => some t
    | _ => none
  | _ => []

/-- The proxy lists the name, does not have it when it is asked for all its names, and so the
prototype that it was made with lists the name again. -/
theorem denied_name_comes_twice : ∃ c act, (Scene.start .ready).run denying = some c
    ∧ c.world.context? 0 = some act ∧ ListsReplies Host.remover 1 ⟨c.world, ()⟩ 0 act ⟨1⟩
    ∧ (answer (invokeAt Host.remover 1) (.keys 0 ⟨1⟩ true) ⟨c.world, ()⟩).toOption.map
        (fun (h, t) => t.world.textsUnder h 3) = some [some ("x" : Text), some "x", none] := by
  have hrun : ((Scene.start .ready).run denying).any (fun c => (c.world.context? 0).isSome
      && (answer (invokeAt Host.remover 1) (.keys 0 ⟨1⟩ true) ⟨c.world, ()⟩).toOption.map
        (fun (h, t) => t.world.textsUnder h 3) ==
          some [some ("x" : Text), some "x", none]) = true := by
    decide +kernel
  obtain ⟨c, hc, hobserved⟩ := (Option.any_eq_true _ _).mp hrun
  obtain ⟨hcontext, htwice⟩ := Bool.and_eq_true_iff.mp hobserved
  obtain ⟨act, hact⟩ := Option.isSome_iff_exists.mp hcontext
  exact ⟨c, act, hc, hact,
    names_come_as_often_as_listed Host.remover 1 ⟨c.world, ()⟩ 0 act ⟨1⟩ hact, eq_of_beq htwice⟩

end ScriptBoundary.Boundary
