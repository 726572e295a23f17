import ScriptBoundary.Proofs.Growth
import ScriptBoundary.Proofs.Handles

/-!
# There and back

`encode` and `decode` are not inverse to each other, and cannot be: a handle is given back for a new
one, a date is copied, and symbols mean nothing to a host. What they do preserve is what a value is
a value of. `World.Presents` says that a boundary value stands for a script value: it is the inline
value that the script value becomes, or it has a handle to it, labelled with the kind that the
script value really has. What `encode` gives presents what it was given, and what `decode` gives is
what was presented, so both ways of going there and back come down to `Form.of`.

Dates are the one case in which there is something to compute. The time of a date object has been
clipped before, and clipping it again makes no difference (`clipTime_clipTime`), so the copy of a
date has the very same time.

## Main results

* `World.presents_encode`, `World.decode_composite`: the codec in terms of what is presented
* `Form.of_evolves`: what has a kind keeps it
* `codec_round_trips`: there and back, in either direction
-/

namespace ScriptBoundary.Script

namespace Value

theorem sameNumber_self (x : Float) : sameNumber x x = true := by
  rw [sameNumber]
  split
  · assumption
  · exact beq_self_eq_true _

/-- Every value is the same as itself, a NaN included. -/
theorem sameValue_self (v : Value) : v.sameValue v = true := by
  cases v with
  | number x => exact sameNumber_self x
  | _ => simp [sameValue]

/-- Whether a value refers to no cell that is not there. -/
def IsIn (h : Heap) (v : Value) : Prop := ∀ r, v = .object r → r < h.cells.size

/-- Whether a value means nothing to a host. -/
def IsForeign : Value → Bool
  | .symbol _ | .bigint _ => true
  | _ => false

/-- Whether a value is a date, which a host gets a copy of. -/
def IsDate (h : Heap) (v : Value) : Prop := ∃ r t, v = .object r ∧ (h.object r).nature = .date t

end Value

/-- Dates remain dates, and nothing else becomes one. -/
theorem Nature.Evolves.isDate {n n' : Nature} (h : n.Evolves n') :
    (∃ t, n' = .date t) ↔ ∃ t, n = .date t := by
  rcases h with rfl | h
  · rfl
  · cases n <;> cases n' <;> simp_all [canBecome]

end ScriptBoundary.Script

namespace ScriptBoundary.Boundary

open Script (Heap Nature Ref Time clipTime)

/-- What an object is called at the boundary does not change. -/
theorem Kind.ofNature_evolves {n n' : Nature} (h : n.Evolves n') :
    Kind.ofNature n' = Kind.ofNature n := by
  rcases h with rfl | h
  · rfl
  · cases n <;> cases n' <;> simp_all [Nature.canBecome, Kind.ofNature, Nature.isCallable]

namespace Form

variable {h h' : Heap} {x : Script.Value} {kind : Kind} {r : Ref}

theorem of_date {t : Time} (hr : (h.object r).nature = .date t) :
    Form.of h (.object r) = .inline (.date t.ms) := by
  simp only [Form.of, hr]

/-- An object that is no date has a kind. -/
theorem of_object (hr : ¬∃ t, (h.object r).nature = .date t) :
    Form.of h (.object r) = .composite (Kind.ofNature (h.object r).nature) := by
  simp only [Form.of]
  split
  · next t ht => exact absurd ⟨t, ht⟩ hr
  · rfl

/-- What has a kind keeps it, whatever scripts do to it. -/
theorem of_evolves (hx : x.IsIn h) (hh : h.Evolves h') (hk : Form.of h x = .composite kind) :
    Form.of h' x = .composite kind := by
  cases x with
  | object r =>
    have hnature := hh.nature (hx r rfl)
    by_cases hdate : ∃ t, (h.object r).nature = .date t
    · obtain ⟨t, ht⟩ := hdate
      rw [of_date ht] at hk
      cases hk
    · rw [of_object hdate] at hk
      rw [of_object (mt hnature.isDate.mp hdate), Kind.ofNature_evolves hnature]
      exact hk
  | text t => exact hk
  | _ => cases hk

theorem of_foreign (hx : x.IsForeign = true) : Form.of h x = .inline .undefined := by
  cases x with
  | symbol s => rfl
  | bigint n => rfl
  | _ => cases hx

/-- What is neither foreign nor a date has a kind, or else its form says all of it. -/
theorem of_plain (hforeign : x.IsForeign = false) (hdate : ¬x.IsDate h) :
    (∃ kind, Form.of h x = .composite kind)
      ∨ ∃ u, Form.of h x = .inline u ∧ ∀ (w : World) realm, w.decode realm u = (x, w) := by
  cases x with
  | object r => exact .inl ⟨_, of_object fun ⟨t, ht⟩ => hdate ⟨r, t, rfl, ht⟩⟩
  | text t => exact .inl ⟨_, rfl⟩
  | symbol s => cases hforeign
  | bigint n => cases hforeign
  | _ => exact .inr ⟨_, rfl, fun _ _ => rfl⟩

end Form

/-- A value with the time of a date clipped. -/
def Value.clipped : Value → Value
  | .date ms => .date (clipTime ms)
  | u => u

/-! ## What values stand for -/

namespace World

variable {w w' : World} {i : InstanceId} {x : Script.Value} {u : Value} {kind : Kind} {h : Handle}

/-- Whether a boundary value is one that an instance hands out for a script value. -/
def Presents (w : World) (i : InstanceId) (x : Script.Value) (u : Value) : Prop :=
  match Form.of w.heap x with
  | .inline v => u = v
  | .composite kind => ∃ h, u = .composite kind h ∧ w.cell? h = some ⟨x, i⟩

theorem encode_inline (hx : Form.of w.heap x = .inline u) : w.encode i x = (u, w) := by
  rw [encode, hx]

theorem encode_composite (hx : Form.of w.heap x = .composite kind) :
    w.encode i x = (.composite kind ⟨w.handles.size⟩, (w.newHandle i x).2) := by
  rw [encode, hx]
  rfl

theorem cell?_newHandle (w : World) (i : InstanceId) (x : Script.Value) :
    (w.newHandle i x).2.cell? ⟨w.handles.size⟩ = some ⟨x, i⟩ := by
  rw [← cell?_purse, purse_newHandle]
  exact Purse.cell?_make _ _ _

/-- **What is encoded is presented.** -/
theorem presents_encode (w : World) (i : InstanceId) (x : Script.Value) :
    (w.encode i x).2.Presents i x (w.encode i x).1 := by
  rw [Presents, heap_congr (setting_encode w i x)]
  cases hx : Form.of w.heap x with
  | inline u => rw [encode_inline hx]
  | composite kind =>
    rw [encode_composite hx]
    exact ⟨_, rfl, cell?_newHandle w i x⟩

/-- **What is presented is decoded**, and its handle is gone. -/
theorem decode_composite (hc : w.cell? h = some ⟨x, i⟩) (realm : Ref) (kind : Kind) :
    w.decode realm (.composite kind h) = (x, w.releaseHandle h) := by
  rw [decode, referent, hc]
  rfl

/-- Giving a handle back leaves the numbers of the others as they are. -/
theorem size_releaseHandle (w : World) (h : Handle) :
    (w.releaseHandle h).handles.size = w.handles.size := by
  rw [releaseHandle]
  split
  · rfl
  · exact Array.size_setIfInBounds

/-- The object that a date becomes. -/
theorem nature_newDate (h : Heap) (realm : Ref) (ms : Float) :
    ((newDate h realm ms).1.object (newDate h realm ms).2).nature = .date (.clip ms) := by
  rw [newDate, Heap.apply]
  exact congrArg Script.Object.nature ((Heap.object_add _ _ _).trans (if_pos rfl))

/-! ## There and back -/

/-- A boundary value goes to a script and comes back. -/
def sendBack (w : World) (realm : Ref) (i : InstanceId) (u : Value) : Value × World :=
  (w.decode realm u).2.encode i (w.decode realm u).1

/-- A script value goes to the host and comes back. -/
def bringBack (w : World) (i : InstanceId) (realm : Ref) (x : Script.Value) :
    Script.Value × World :=
  (w.encode i x).2.decode realm (w.encode i x).1

/-- A value without a handle comes back as it is, if it is no date. -/
theorem sendBack_inline (realm : Ref) (hu : u.handle? = none) (hdate : ∀ ms, u ≠ .date ms) :
    w.sendBack realm i u = (u, w) := by
  cases u with
  | date ms => exact absurd rfl (hdate ms)
  | composite kind h => cases hu
  | _ => rfl

/-- A date comes back clipped, and leaves a date object behind. -/
theorem sendBack_date (w : World) (realm : Ref) (i : InstanceId) (ms : Float) :
    w.sendBack realm i (.date ms) =
      (.date (clipTime ms), { w with heap := (newDate w.heap realm ms).1 }) :=
  encode_inline (w := { w with heap := (newDate w.heap realm ms).1 })
    (Form.of_date (nature_newDate w.heap realm ms))

/-- What has no kind leaves no handle behind. -/
theorem sendBack_kindless {owner : InstanceId} (hc : w.cell? h = some ⟨x, owner⟩) (realm : Ref)
    (label : Kind) (hx : Form.of w.heap x = .inline u) :
    w.sendBack realm i (.composite label h) = (u, w.releaseHandle h) := by
  have hform : Form.of (w.releaseHandle h).heap x = .inline u := by
    rwa [heap_congr (setting_releaseHandle w h)]
  rw [sendBack, decode_composite hc, encode_inline hform]

/-- What has a handle comes back with another one. -/
theorem sendBack_composite {owner : InstanceId} (hc : w.cell? h = some ⟨x, owner⟩) (realm : Ref)
    (label : Kind) (hx : Form.of w.heap x = .composite kind) :
    w.sendBack realm i (.composite label h) =
      (.composite kind ⟨w.handles.size⟩, ((w.releaseHandle h).newHandle i x).2) := by
  have hform : Form.of (w.releaseHandle h).heap x = .composite kind := by
    rwa [heap_congr (setting_releaseHandle w h)]
  rw [sendBack, decode_composite hc, encode_composite hform, size_releaseHandle]

/-- What becomes an inline value comes back as that says. -/
theorem bringBack_inline (realm : Ref) (hx : Form.of w.heap x = .inline u) :
    w.bringBack i realm x = w.decode realm u := by
  rw [bringBack, encode_inline hx]

/-- What gets a handle comes back when the handle is given back. -/
theorem bringBack_composite (realm : Ref) (hx : Form.of w.heap x = .composite kind) :
    w.bringBack i realm x = (x, (w.newHandle i x).2.releaseHandle ⟨w.handles.size⟩) := by
  rw [bringBack, encode_composite hx]
  exact decode_composite (cell?_newHandle w i x) realm kind

/-- Neither a text nor an object that is no date is another one when it comes back. -/
theorem fst_bringBack (hforeign : x.IsForeign = false) (hdate : ¬x.IsDate w.heap) (realm : Ref) :
    (w.bringBack i realm x).1 = x := by
  rcases Form.of_plain hforeign hdate with ⟨kind, hk⟩ | ⟨u, hu, hdecode⟩
  · rw [bringBack_composite realm hk]
  · rw [bringBack_inline realm hu, hdecode]

/-- A date comes back as a new object with the same time. -/
theorem bringBack_date {r : Ref} {t : Time} (hr : (w.heap.object r).nature = .date t)
    (i : InstanceId) (realm : Ref) : w.bringBack i realm (.object r) =
      (.object (newDate w.heap realm t.ms).2,
        { w with heap := (newDate w.heap realm t.ms).1 }) :=
  bringBack_inline realm (Form.of_date hr)

theorem heap_bringBack_composite (realm : Ref) (hx : Form.of w.heap x = .composite kind) :
    (w.bringBack i realm x).2.heap = w.heap := by
  rw [bringBack_composite realm hx]
  exact heap_congr ((setting_releaseHandle _ _).trans (setting_newHandle w i x))

/-- Whether two values, each of a world of its own, are the same but for the number of a handle. -/
def Alike (w : World) (u : Value) (w' : World) (u' : Value) : Prop :=
  match u, u' with
  | .composite kind h, .composite kind' h' =>
    kind = kind' ∧ ∃ x i i', w.cell? h = some ⟨x, i⟩ ∧ w'.cell? h' = some ⟨x, i'⟩
  | u, u' => u = u'

/-- What presents the same value is alike. -/
theorem Presents.alike {i' : InstanceId} {x' : Script.Value} {u' : Value} (hu : w.Presents i x u)
    (hu' : w'.Presents i' x' u') (hform : Form.of w.heap x = Form.of w'.heap x')
    (hsame : ∀ kind, Form.of w.heap x = .composite kind → x = x') : w.Alike u w' u' := by
  rw [Presents] at hu hu'
  rw [← hform] at hu'
  cases hx : Form.of w.heap x with
  | inline v =>
    rw [hx] at hu hu'
    obtain rfl : u = v := hu
    obtain rfl : u' = u := hu'
    cases u' with
    | composite kind h => exact absurd (Form.handle?_of_inline hx) (by simp [Value.handle?])
    | _ => rfl
  | composite kind =>
    rw [hx] at hu hu'
    obtain ⟨h, rfl, hc⟩ := hu
    obtain ⟨h', rfl, hc'⟩ := hu'
    obtain rfl := hsame kind hx
    exact ⟨rfl, x, i, i', hc, hc'⟩

/-- What a value without a handle is decoded to has the form that it was encoded from. -/
theorem form_decode_inline {h : Heap} (hx : Form.of h x = .inline u) (w : World) (realm : Ref) :
    Form.of (w.decode realm u).2.heap (w.decode realm u).1 = .inline u := by
  cases x with
  | object r =>
    by_cases hdate : ∃ t, (h.object r).nature = .date t
    · obtain ⟨t, ht⟩ := hdate
      rw [Form.of_date ht] at hx
      obtain rfl := Form.inline.inj hx
      have hsame : (Time.clip t.ms).ms = t.ms := by rw [Time.ms_clip, t.clipped]
      exact (Form.of_date (nature_newDate w.heap realm t.ms)).trans (by rw [hsame])
    · rw [Form.of_object hdate] at hx
      cases hx
  | text t => cases hx
  | _ =>
    cases hx
    rfl

/-- What comes back has the form that it had when it went. -/
theorem form_bringBack (w : World) (i : InstanceId) (realm : Ref) (x : Script.Value) :
    Form.of (w.bringBack i realm x).2.heap (w.bringBack i realm x).1 = Form.of w.heap x := by
  cases hx : Form.of w.heap x with
  | inline u =>
    rw [bringBack_inline realm hx]
    exact form_decode_inline hx w realm
  | composite kind =>
    have hsame : (w.bringBack i realm x).1 = x := by rw [bringBack_composite realm hx]
    rw [heap_bringBack_composite realm hx, hsame, hx]

end World

/-- What the codec does to values that go there and back. -/
structure RoundTrips (w : World) (realm : Ref) (i : InstanceId) : Prop where
  /-- A value without a handle comes back as it was, the time of a date clipped. No counter moves,
  and unless it is a date nothing else happens either. -/
  inline : ∀ u, u.handle? = none → (w.sendBack realm i u).1 = u.clipped
    ∧ (w.sendBack realm i u).2.purse = w.purse
    ∧ ((∀ ms, u ≠ .date ms) → (w.sendBack realm i u).2 = w)
  /-- A value with a handle comes back with a new one for the same referent, and with the kind that
  the referent has, however it was labelled. The old handle is given back to the instance that made
  it, the new one is made by the instance that encodes, and no other counter moves. -/
  composite : ∀ label h x owner kind, w.cell? h = some ⟨x, owner⟩ →
    Form.of w.heap x = .composite kind → ∃ new,
      (w.sendBack realm i (.composite label h)).1 = .composite kind new
      ∧ w.cell? new = none
      ∧ (w.sendBack realm i (.composite label h)).2.cell? h = none
      ∧ (w.sendBack realm i (.composite label h)).2.cell? new = some ⟨x, i⟩
      ∧ Script.Value.sameValue (w.referent h)
          ((w.sendBack realm i (.composite label h)).2.referent new) = true
      ∧ ∀ k j, (w.instance? j).isSome →
          (w.sendBack realm i (.composite label h)).2.purse.tally k j = w.purse.tally k j
            + (if k = .released ∧ owner = j then 1 else 0)
            + if k = .created ∧ i = j then 1 else 0
  /-- If what it refers to has no kind, it comes back as the value that this becomes. -/
  kindless : ∀ label h x owner u, w.cell? h = some ⟨x, owner⟩ → Form.of w.heap x = .inline u →
    w.sendBack realm i (.composite label h) = (u, w.releaseHandle h)
  /-- But a handle that was handed out refers to something that has a kind, and as long as the
  handle is out it is the same thing and has the same kind. -/
  handles : ∀ x h, x.IsIn w.heap → (w.encode i x).1.handle? = some h →
    ∀ st ms d, Scene.run ⟨(w.encode i x).2, st⟩ ms = some d → d.world.cell? h = none ∨
      d.world.cell? h = some ⟨x, i⟩ ∧ ∃ kind, (w.encode i x).1 = .composite kind h
        ∧ Form.of d.world.heap x = .composite kind
  /-- What means nothing to a host comes back as undefined, -/
  foreign : ∀ x, x.IsForeign = true → (w.bringBack i realm x).1 = .undefined
  /-- a date as a new date object with the same time, -/
  date : ∀ r t, (w.heap.object r).nature = .date t → ∃ r',
    (w.bringBack i realm (.object r)).1 = .object r' ∧ w.heap.cells.size ≤ r'
      ∧ ((w.bringBack i realm (.object r)).2.heap.object r').nature = .date t
  /-- and everything else as the same value. -/
  same : ∀ x, x.IsForeign = false → ¬x.IsDate w.heap →
    Script.Value.sameValue x (w.bringBack i realm x).1 = true
  /-- A script value that has been to the host and back looks to the host as it did before. -/
  settled : ∀ x j, (w.encode i x).2.Alike (w.encode i x).1
    ((w.bringBack i realm x).2.encode j (w.bringBack i realm x).1).2
    ((w.bringBack i realm x).2.encode j (w.bringBack i realm x).1).1

/-- Who owns what after a handle has come back as another one. -/
theorem World.purse_sendBack_composite {w : World} {h : Handle} {x : Script.Value} {i : InstanceId}
    {owner : InstanceId} {kind : Kind} (hc : w.cell? h = some ⟨x, owner⟩) (realm : Ref)
    (label : Kind) (hx : Form.of w.heap x = .composite kind) :
    (w.sendBack realm i (.composite label h)).2.purse = (w.purse.take h).make i x := by
  rw [World.sendBack_composite hc realm label hx]
  exact (World.purse_newHandle _ i x).trans
    (congrArg (fun p : Purse => p.make i x) (World.purse_releaseHandle w h))

/-- **There and back**, in either direction. -/
theorem codec_round_trips (w : World) (realm : Ref) (i : InstanceId) : RoundTrips w realm i where
  inline u hu := by
    by_cases hdate : ∃ ms, u = .date ms
    · obtain ⟨ms, rfl⟩ := hdate
      rw [World.sendBack_date]
      exact ⟨rfl, rfl, fun hno => absurd rfl (hno ms)⟩
    · have hno : ∀ ms, u ≠ .date ms := fun ms h => hdate ⟨ms, h⟩
      rw [World.sendBack_inline realm hu hno]
      refine ⟨?_, rfl, fun _ => rfl⟩
      cases u with
      | date ms => exact absurd rfl (hno ms)
      | _ => rfl
  composite label h x owner kind hc hk := by
    have hpurse := World.purse_sendBack_composite (i := i) hc realm label hk
    have hlt : h.id < w.purse.cells.size :=
      Purse.lt_of_cell? (p := w.purse) (by rw [World.cell?_purse, hc]; exact Option.some_ne_none _)
    have hnew := World.cell?_newHandle (w.releaseHandle h) i x
    rw [World.size_releaseHandle] at hnew
    have hvalue := World.sendBack_composite (i := i) hc realm label hk
    refine ⟨⟨w.handles.size⟩, by rw [hvalue], ?_, ?_, by rw [hvalue]; exact hnew, ?_,
      fun k j hj => ?_⟩
    · exact Purse.cell?_eq_none_of_le (p := w.purse) (Nat.le_refl _)
    · rw [← World.cell?_purse, hpurse]
      exact ((w.purse.take h).evolves_make i x).dead
        (Nat.lt_of_lt_of_le hlt (w.purse.evolves_take h).size) (Purse.cell?_take _ _)
    · rw [hvalue, World.referent, World.referent, hc, hnew]
      exact Script.Value.sameValue_self x
    · have hj : (w.purse.ledger j).isSome := by rwa [World.purse, Option.isSome_map]
      rw [hpurse, Purse.tally_make ((w.purse.evolves_take h).ledger j hj), Purse.tally_take hj,
        World.cell?_purse, hc]
      simp
  kindless label h x owner u hc hx := World.sendBack_kindless hc realm label hx
  handles x h hx hh st ms d hd := by
    cases hk : Form.of w.heap x with
    | inline u =>
      rw [World.encode_inline hk, Form.handle?_of_inline hk] at hh
      cases hh
    | composite kind =>
      have hmade := World.cell?_newHandle w i x
      have hheap := World.heap_congr (World.setting_newHandle w i x)
      rw [World.encode_composite hk] at hh hd ⊢
      obtain rfl : ⟨w.handles.size⟩ = h := Option.some.inj hh
      have hpurse := Scene.evolves_run hd
      have hform : Form.of d.world.heap x = .composite kind :=
        Form.of_evolves hx (hheap ▸ Scene.evolvesHeap_run hd) hk
      rcases hpurse.cell ⟨w.handles.size⟩ (Purse.lt_of_cell? (by
        rw [World.cell?_purse, hmade]; exact Option.some_ne_none _)) with hcell | hcell
      · exact .inr ⟨hcell.trans hmade, kind, rfl, hform⟩
      · exact .inl hcell
  foreign x hx := by
    rw [World.bringBack_inline realm (Form.of_foreign hx)]
    rfl
  date r t ht := by
    rw [World.bringBack_date ht]
    refine ⟨_, rfl, Nat.le_refl _, (World.nature_newDate w.heap realm t.ms).trans ?_⟩
    rw [Time.clip_ms]
  same x hforeign hdate := by
    rw [World.fst_bringBack hforeign hdate]
    exact Script.Value.sameValue_self x
  settled x j := by
    have hheap := World.heap_congr (World.setting_encode w i x)
    have hheap' := World.heap_congr
      (World.setting_encode (w.bringBack i realm x).2 j (w.bringBack i realm x).1)
    refine (w.presents_encode i x).alike (World.presents_encode _ j _) ?_ fun kind hk => ?_
    · rw [hheap, hheap']
      exact (w.form_bringBack i realm x).symm
    · rw [hheap] at hk
      rw [World.bringBack_composite realm hk]

/-- A text that was called an array. -/
example : ((World.blank.newHandle 0 (.text .empty)).2.sendBack 0 0
    (.composite .array ⟨0⟩)).1.kind? = some .string :=
  rfl

end ScriptBoundary.Boundary
