import ScriptBoundary.Boundary.Surface
import ScriptBoundary.Proofs.Evaluation
import ScriptBoundary.Proofs.Mending

/-!
# Strings between a host and a script

A host writes bytes, a script has units, and a string that changes sides goes through characters.
Characters are what both can say, so what gets lost is what is no character on the one side or on
the other, and it gets lost once: after the first time a string consists of characters, and they
come back from either side as they were.

From the side of the host, what is lost is said by `Utf8.Mends`, and from the side of a script by
`Text.Mended`. The texts that lose nothing are the well-formed ones, and those whose surrogates all
have partners.

## Main results

* `bytes_come_back_mended`: bytes made a string, and read back
* `units_keep_their_places`: a string read, and made again
-/

namespace ScriptBoundary.Boundary

variable {σ : Type} {s : State σ} {i : InstanceId}

/-! ## The two requests -/

/-- The state with one more handle. -/
def State.withHandle (s : State σ) (i : InstanceId) (v : Script.Value) : State σ :=
  { s with world := (s.world.newHandle i v).2 }

theorem State.isAlive_withHandle (halive : s.world.isAlive i = true) (owner : InstanceId)
    (v : Script.Value) : (s.withHandle owner v).world.isAlive i = true :=
  (World.isAlive_congr (World.calls_newHandle _ _ _) i).trans halive

/-- Making a string alters the state by a handle. -/
theorem answer_createString (invoke : Invoke σ) (halive : s.world.isAlive i = true)
    (bytes : List UInt8) : answer invoke (.createString i bytes) s =
      .ok (⟨s.world.handles.size⟩, s.withHandle i (.ofString (Utf8.decodeString bytes))) :=
  answer_of_alive (r := .createString i bytes) rfl halive

/-- A string is read without a context, and without a change to the state. -/
theorem answer_toUtf8 (invoke : Invoke σ) (halive : s.world.isAlive i = true) {h : Handle}
    {t : Text} (ht : s.world.referent h = .text t) :
    answer invoke (.toUtf8 i h) s = .ok (t.toString, s) := by
  rw [answer_of_alive (r := .toUtf8 i h) rfl halive, serve, Run.bind_apply, Run.view_apply]
  dsimp only
  rw [ht]
  rfl

/-! ## From the host and back -/

/-- A host program that makes a string and reads it back. -/
def Act.readBack (i : InstanceId) (bytes : List UInt8) : Act σ String := do
  let h ← Act.request (.createString i bytes)
  Act.request (.toUtf8 i h)

/-- The same over the C surface, where what is read is a view. -/
def Act.viewBack (i : InstanceId) (bytes : List UInt8) : Act σ (Option TextView) := do
  let h ← Surface.stringCreate (some i) (some bytes)
  Surface.stringToUtf8 (some i) h

/-- What was made is read as it was made. -/
theorem answer_toUtf8_new (invoke : Invoke σ) (halive : s.world.isAlive i = true)
    (text : String) : answer invoke (.toUtf8 i ⟨s.world.handles.size⟩)
      (s.withHandle i (.ofString text)) = .ok (text, s.withHandle i (.ofString text)) := by
  refine (answer_toUtf8 invoke (State.isAlive_withHandle halive i _)
    (World.referent_newHandle_new s.world i (.text (.ofString text)))).trans ?_
  rw [Text.toString_ofString]
  rfl

theorem run_readBack (invoke : Invoke σ) (halive : s.world.isAlive i = true)
    (bytes : List UInt8) : (Act.readBack i bytes).run (answer invoke) s =
      .ok (Utf8.decodeString bytes, s.withHandle i (.ofString (Utf8.decodeString bytes))) := by
  rw [Act.readBack, Act.run_bind, Act.run_request, answer_createString invoke halive]
  exact (Act.run_request _ _ _).trans (answer_toUtf8_new invoke halive _)

theorem run_viewBack (invoke : Invoke σ) (halive : s.world.isAlive i = true)
    (bytes : List UInt8) : (Act.viewBack i bytes).run (answer invoke) s =
      .ok (some (.ofString (Utf8.decodeString bytes)),
        s.withHandle i (.ofString (Utf8.decodeString bytes))) := by
  rw [Act.viewBack, Act.run_bind, Surface.stringCreate, Act.run_bind, Act.run_request]
  dsimp only [Option.getD_some]
  rw [answer_createString invoke halive]
  dsimp only
  rw [Act.run_pure]
  dsimp only
  rw [Surface.stringToUtf8, Act.run_bind, Act.run_request, answer_toUtf8_new invoke halive]
  rfl

/-- A view has the length of its text as long as that is a length. -/
theorem TextView.length_ofString {text : String} (h : (Utf8.bytesOf text).length < twoPow 31) :
    (TextView.ofString text).length = (Utf8.bytesOf text).length := by
  rw [Utf8.length_bytesOf] at h ⊢
  exact Nat.min_eq_left (Nat.le_sub_one_of_lt h)

/-- How bytes come back to a host, as `text`. -/
structure ComesBack (invoke : Invoke σ) (s : State σ) (i : InstanceId) (bytes : List UInt8)
    (text : String) : Prop where
  /-- They are read back as `text`, -/
  read : ∃ t, (Act.readBack i bytes).run (answer invoke) s = .ok (text, t)
    /- and its bytes are read back as they are. -/
    ∧ ∃ u, (Act.readBack i (Utf8.bytesOf text)).run (answer invoke) t = .ok (text, u)
  /-- The text is what mending makes of the bytes, and nothing else is. -/
  mended : ∀ cs, Utf8.Mends bytes cs ↔ cs = text.toList
  /-- It is well-formed, -/
  wellFormed : Utf8.IsWellFormed (Utf8.bytesOf text)
  /-- and has the bytes it was made from if and only if they were. -/
  same : Utf8.bytesOf text = bytes ↔ Utf8.IsWellFormed bytes
  /-- A view of it has its length. -/
  view : (Utf8.bytesOf text).length < twoPow 31 → ∃ t, (Act.viewBack i bytes).run (answer invoke) s
    = .ok (some ⟨text, (Utf8.bytesOf text).length⟩, t)
  /-- As a script it does what the bytes do. -/
  eval : answer invoke (.eval i bytes) s = answer invoke (.eval i (Utf8.bytesOf text)) s

/-- **Bytes that are made a string come back mended.** -/
theorem bytes_come_back_mended (invoke : Invoke σ) (s : State σ) (i : InstanceId)
    (halive : s.world.isAlive i = true) (bytes : List UInt8) :
    ∃ text, ComesBack invoke s i bytes text := by
  refine ⟨Utf8.decodeString bytes, ?_⟩
  have htwice : Utf8.decodeString (Utf8.bytesOf (Utf8.decodeString bytes)) =
      Utf8.decodeString bytes := Utf8.decodeString_bytesOf _
  constructor
  · have hagain := run_readBack invoke (State.isAlive_withHandle halive i
      (.ofString (Utf8.decodeString bytes))) (Utf8.bytesOf (Utf8.decodeString bytes))
    rw [htwice] at hagain
    exact ⟨_, run_readBack invoke halive bytes, _, hagain⟩
  · intro cs
    rw [Utf8.mends_iff, Utf8.decodeString, String.toList_ofList]
    exact eq_comm
  · exact ⟨_, Utf8.bytesOf_eq _⟩
  · rw [Utf8.bytesOf_decodeString, Utf8.encode_decode_eq_iff]
  · intro hlength
    have hview : TextView.ofString (Utf8.decodeString bytes) =
        ⟨Utf8.decodeString bytes, (Utf8.bytesOf (Utf8.decodeString bytes)).length⟩ :=
      congrArg _ (TextView.length_ofString hlength)
    exact ⟨_, hview ▸ run_viewBack invoke halive bytes⟩
  · simp only [answer, serve]
    rw [htwice]
    rfl

/-- An instance, and the handle of a string whose last unit has no partner. -/
def halfPair : List Move :=
  [.change (.newInstance default), .change (.newHandle 0 (.text ⟨#[0x61, 0xD83D, 0xDE00, 0xD83D]⟩))]

/-- Bytes of a character that breaks off, with a byte after them that is one by itself, come back
as U+FFFD and that byte. -/
theorem broken_character_comes_back : ∃ c, (Scene.start .ready).run halfPair = some c
    ∧ c.world.isAlive 0 = true ∧ ∀ invoke : Invoke Unit,
      ∃ text, ComesBack invoke ⟨c.world, ()⟩ 0 [0xF0, 0x9F, 0x98, 0x41] text
        ∧ text.toList = [Utf8.replacement, 'A'] := by
  obtain ⟨c, hc, halive⟩ : ∃ c, (Scene.start .ready).run halfPair = some c
      ∧ c.world.isAlive 0 = true := ⟨_, rfl, rfl⟩
  refine ⟨c, hc, halive, fun invoke => ?_⟩
  obtain ⟨text, htext⟩ := bytes_come_back_mended invoke ⟨c.world, ()⟩ 0 halive
    [0xF0, 0x9F, 0x98, 0x41]
  refine ⟨text, htext, ((htext.mended _).mp (Utf8.mends_iff.mpr ?_)).symm⟩
  decide

/-! ## From a script and back -/

/-- A host program that reads a string and makes it again. -/
def Act.makeAgain (i : InstanceId) (h : Handle) : Act σ Handle := do
  let text ← Act.request (.toUtf8 i h)
  Act.request (.createString i (Utf8.bytesOf text))

theorem run_makeAgain (invoke : Invoke σ) (halive : s.world.isAlive i = true) {h : Handle}
    {t : Text} (ht : s.world.referent h = .text t) :
    (Act.makeAgain i h).run (answer invoke) s =
      .ok (⟨s.world.handles.size⟩, s.withHandle i (.ofString t.toString)) := by
  rw [Act.makeAgain, Act.run_bind, Act.run_request, answer_toUtf8 invoke halive ht]
  refine (Act.run_request _ _ _).trans ?_
  rw [answer_createString invoke halive, Utf8.decodeString_bytesOf]

/-- How a string with a handle is made again. -/
structure IsMadeAgain (invoke : Invoke σ) (s : State σ) (i : InstanceId) (h : Handle) (t : Text)
    (h' : Handle) (t' : Text) (u : State σ) : Prop where
  /-- The host reads it, makes a string of what it has read, and gets a handle of that. -/
  made : (Act.makeAgain i h).run (answer invoke) s = .ok (h', u)
  referent : u.world.referent h' = .text t'
  /-- It has as many units, and the same ones except for those without a partner. -/
  mended : t.Mended t'
  /-- It is the same value if and only if all have their partners. -/
  same : ∃ b, answer invoke (.sameValue h h') u = .ok (b, u)
    ∧ (b = true ↔ ∀ k, t.isLone k = false)
  /-- What is made again from it is the same string. -/
  again : ∃ h'' v, (Act.makeAgain i h').run (answer invoke) u = .ok (h'', v)
    ∧ v.world.referent h'' = .text t'

/-- **A string that is made again** keeps its units in their places. -/
theorem units_keep_their_places (invoke : Invoke σ) (s : State σ) (i : InstanceId)
    (halive : s.world.isAlive i = true) (h : Handle) (t : Text) (owner : InstanceId)
    (hcell : s.world.cell? h = some ⟨.text t, owner⟩) :
    ∃ h' t' u, IsMadeAgain invoke s i h t h' t' u := by
  let t' := Text.ofString t.toString
  have hreferent : s.world.referent h = .text t := by
    rw [World.referent, hcell]
    rfl
  have hnew : (s.withHandle i (.text t')).world.referent ⟨s.world.handles.size⟩ = .text t' :=
    World.referent_newHandle_new _ _ _
  have hold : (s.withHandle i (.text t')).world.referent h = .text t :=
    World.referent_newHandle hcell _
  refine ⟨⟨s.world.handles.size⟩, t', s.withHandle i (.text t'), ?_⟩
  constructor
  · exact run_makeAgain invoke halive hreferent
  · exact hnew
  · exact t.mended_ofString_toString
  · refine ⟨t == t', ?_, ?_⟩
    · have hanswer : answer invoke (.sameValue h ⟨s.world.handles.size⟩)
          (s.withHandle i (.text t')) =
          .ok (((s.withHandle i (.text t')).world.referent h).sameValue
            ((s.withHandle i (.text t')).world.referent ⟨s.world.handles.size⟩),
            s.withHandle i (.text t')) := rfl
      rw [hanswer, hold, hnew]
      rfl
    · rw [beq_iff_eq, eq_comm]
      exact t.ofString_toString_eq_iff
  · have hagain := run_makeAgain invoke (State.isAlive_withHandle halive i (.text t')) hnew
    rw [Text.toString_ofString] at hagain
    exact ⟨_, _, hagain, World.referent_newHandle_new _ _ _⟩

/-- A pair stays, and a unit without a partner after it is replaced. -/
theorem half_pair_is_made_again : ∃ c, (Scene.start .ready).run halfPair = some c
    ∧ ∀ invoke : Invoke Unit, ∃ h' u, IsMadeAgain invoke ⟨c.world, ()⟩ 0 ⟨0⟩
      ⟨#[0x61, 0xD83D, 0xDE00, 0xD83D]⟩ h' ⟨#[0x61, 0xD83D, 0xDE00, 0xFFFD]⟩ u := by
  obtain ⟨c, hc, halive, hcell⟩ : ∃ c, (Scene.start .ready).run halfPair = some c
      ∧ c.world.isAlive 0 = true
      ∧ c.world.cell? ⟨0⟩ = some ⟨.text ⟨#[0x61, 0xD83D, 0xDE00, 0xD83D]⟩, 0⟩ := ⟨_, rfl, rfl, rfl⟩
  refine ⟨c, hc, fun invoke => ?_⟩
  obtain ⟨h', t', u, hmade⟩ := units_keep_their_places invoke ⟨c.world, ()⟩ 0 halive ⟨0⟩ _ 0 hcell
  have hmended : Text.Mended ⟨#[0x61, 0xD83D, 0xDE00, 0xD83D]⟩ ⟨#[0x61, 0xD83D, 0xDE00, 0xFFFD]⟩ :=
    { size := rfl
      units
        | 0 | 1 | 2 | 3 => by decide
        | _ + 4 => rfl }
  exact ⟨h', u, hmade.mended.unique hmended ▸ hmade⟩

end ScriptBoundary.Boundary
