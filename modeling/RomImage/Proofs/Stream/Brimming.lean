import RomImage.Proofs.Stream.Limited
import RomImage.Proofs.Stream.Orderly

/-!
# A full disk

The streams here refuse nothing, but one of them has a limit: it takes the bytes before it and none
from it on. A copy from another stream into it pours, and so does a copy to the tape in memory,
which has no limit as long as there is memory, and one from there into the stream with the limit.
-/

namespace RomImage

namespace Stream

open Function (update)

variable {ι σ α : Type} [DecidableEq ι] {dest source : ι} {movable : Bool} {limit : Option Nat}

/-- All streams can be read, written and moved without end, but that one of them may stand still,
and is moved no further than its limit. -/
def abilities (dest : ι) (movable : Bool) (limit : Option Nat) (stream : ι) : Ability :=
  if stream = dest then ⟨true, true, movable, limit.map (· + 1)⟩ else ⟨true, true, true, none⟩

def brimming (dest : ι) (movable : Bool) (limit : Option Nat) : Conduct (interface ι) (ι → Tape)
  | .write stream data, tapes, answer, after => stream = dest →
    ∃ tape, Brims limit data (tapes dest) answer tape ∧ after = update tapes dest tape
  | request, tapes, answer, after =>
    conduct (abilities dest movable limit) True request tapes answer after

def World.IsBrimming (world : World ι σ) (dest : ι) (movable : Bool) (limit : Option Nat) : Prop :=
  ∀ request state, brimming dest movable limit request (world.tape state)
    (world.answer request state).1 (world.tape (world.answer request state).2)

def Unwriting (request : Request ι) : Prop := ∀ stream, ¬ request.WritesTo stream

/-- Work that does not write does what it does where nothing is refused. -/
theorem brimming_ensures {work : Work ι α} {scratch : Scratch} {tapes : ι → Tape}
    {good : α → Scratch → (ι → Tape) → Prop} {bad : Failure → Scratch → (ι → Tape) → Prop}
    (hwork : work.Ensures (conduct (abilities dest movable limit) True) scratch tapes good bad)
    (hasks : work.AsksOnly Unwriting) :
    work.Ensures (brimming dest movable limit) scratch tapes good bad := by
  refine hwork.narrow hasks fun request tapes answer after hunwriting hbrimming => ?_
  cases request with
  | write stream data => exact absurd ⟨data, rfl⟩ (hunwriting stream)
  | readInto | read | seek | seekUnknown | tell | seekable | note => exact hbrimming

omit [DecidableEq ι] in
theorem moves_unwriting (stream : ι) : Moves Unwriting stream where
  tell := fun _ ⟨_, hwrites⟩ => absurd hwrites (by simp)
  seek := fun _ _ _ ⟨_, hwrites⟩ => absurd hwrites (by simp)
  seekUnknown := fun _ ⟨_, hwrites⟩ => absurd hwrites (by simp)

omit [DecidableEq ι] in
theorem notes_unwriting (fact : Note) : Unwriting (.note fact : Request ι) :=
  fun _ ⟨_, hwrites⟩ => absurd hwrites (by simp)

theorem abilities_of_ne (hapart : source ≠ dest) :
    abilities dest movable limit source = ⟨true, true, true, none⟩ :=
  if_neg hapart

theorem abilities_dest : abilities dest movable limit dest
    = ⟨true, true, movable, limit.map (· + 1)⟩ :=
  if_pos rfl

/-- A read into a chunk hands over some of the bytes ahead. -/
theorem brimming_into (hapart : source ≠ dest) {size : Nat} {tapes after : ι → Tape}
    {answer : Except Fault Delivery}
    (hanswer : brimming dest movable limit (.readInto source size) tapes answer after) :
    ∃ delivery, answer = .ok delivery ∧ Reports delivery.reported delivery.stored.length ∧
      ∃ count ≤ size, count ≤ (tapes source).ahead.length ∧
        delivery.stored = (tapes source).ahead.take count ∧
        (0 < size → (tapes source).ahead ≠ [] → 0 < count) ∧
        after = update tapes source ((tapes source).advance count) := by
  obtain ⟨htruthful, hobliging⟩ := hanswer
  have hreadable : (abilities dest movable limit source).readable = true := by
    rw [abilities_of_ne hapart]
  obtain ⟨delivery, rfl, hsome⟩ := hobliging trivial hreadable
  obtain ⟨asked, hasked, hstored, hreports, rfl⟩ := htruthful
  obtain ⟨count, hcount, hthere, hread⟩ := (tapes source).read_eq asked
  rw [hread] at hstored ⊢
  refine ⟨delivery, rfl, hreports, count, Nat.le_trans hcount hasked, hthere, hstored, ?_, rfl⟩
  intro hsize hahead
  have hpositive := List.length_pos_iff.mpr (hsome hsize hahead)
  rw [hstored, List.length_take] at hpositive
  omega

/-- A read hands over some of the bytes ahead. -/
theorem brimming_plain (hapart : source ≠ dest) {size : Nat} {tapes after : ι → Tape}
    {answer : Except Fault (Option Bytes)}
    (hanswer : brimming dest movable limit (.read source size) tapes answer after) :
    ∃ data, answer = .ok data ∧ ∃ count ≤ size, count ≤ (tapes source).ahead.length ∧
      data.getD [] = (tapes source).ahead.take count ∧
      (0 < size → (tapes source).ahead ≠ [] → 0 < count) ∧
      after = update tapes source ((tapes source).advance count) := by
  obtain ⟨htruthful, hobliging⟩ := hanswer
  have hreadable : (abilities dest movable limit source).readable = true := by
    rw [abilities_of_ne hapart]
  obtain ⟨data, rfl, hsome⟩ := hobliging trivial hreadable
  obtain _ | data := data
  · have hafter : after = tapes := htruthful
    refine ⟨none, rfl, 0, Nat.zero_le _, Nat.zero_le _, rfl, fun hsize hahead => ?_, ?_⟩
    · exact absurd rfl (hsome hsize hahead)
    · rw [hafter, Tape.advance_zero, Function.update_eq_self]
  · obtain ⟨asked, hasked, hdata, rfl⟩ := htruthful
    obtain ⟨count, hcount, hthere, hread⟩ := (tapes source).read_eq asked
    rw [hread] at hdata ⊢
    refine ⟨some data, rfl, count, Nat.le_trans hcount hasked, hthere, hdata, ?_, rfl⟩
    intro hsize hahead
    have hpositive := List.length_pos_iff.mpr (hsome hsize hahead)
    rw [Option.getD_some, hdata, List.length_take] at hpositive
    omega

theorem brimming_note {fact : Note} {tapes after : ι → Tape} {answer : Except Fault Unit}
    (hanswer : brimming dest movable limit (.note fact) tapes answer after) :
    answer = .ok () ∧ after = tapes :=
  ⟨hanswer.2 trivial, hanswer.1⟩

/-- From another stream into the one with the limit. -/
theorem pours_brimming (hapart : source ≠ dest) (reach : Nat) :
    Pours (brimming dest movable limit) source dest limit reach
      fun tapes => ((tapes source).ahead, tapes dest, ()) where
  into := by
    intro size tapes answer after hanswer
    obtain ⟨delivery, rfl, hreports, count, hcount, hthere, hstored, hsome, rfl⟩ :=
      brimming_into hapart hanswer
    refine ⟨delivery, rfl, hreports, count, hcount, hthere, hstored, hsome, ?_⟩
    dsimp only
    rw [Function.update_self, Tape.ahead_advance, Function.update_of_ne hapart.symm]
  plain := by
    intro size tapes answer after hanswer
    obtain ⟨data, rfl, count, hcount, hthere, hdata, hsome, rfl⟩ := brimming_plain hapart hanswer
    refine ⟨data, rfl, count, hcount, hthere, hdata, hsome, ?_⟩
    dsimp only
    rw [Function.update_self, Tape.ahead_advance, Function.update_of_ne hapart.symm]
  write := by
    intro data tapes answer after _ hanswer
    obtain ⟨tape, hbrims, rfl⟩ := hanswer rfl
    refine ⟨tape, hbrims, ?_⟩
    dsimp only
    rw [Function.update_self, Function.update_of_ne hapart]
  note := by
    intro fact tapes answer after hanswer
    obtain ⟨rfl, rfl⟩ := brimming_note hanswer
    exact ⟨rfl, rfl⟩

/-- From a stream to the tape in memory, while the stream with the limit stays as it is. -/
theorem pours_filling [Machine] (hapart : source ≠ dest) {reach : Nat}
    (hreach : reach < Machine.memory) :
    Pours (.steered steer (brimming dest movable limit)) (some source) none none reach
      fun state : Tape × (ι → Tape) => ((state.2 source).ahead, state.1, state.2 dest) where
  into := by
    rintro size ⟨memory, tapes⟩ answer after ⟨_, later, hanswer, rfl, rfl⟩
    obtain ⟨delivery, hgiven, hreports, count, hcount, hthere, hstored, hsome, rfl⟩ :=
      brimming_into hapart hanswer
    refine ⟨delivery, hgiven, hreports, count, hcount, hthere, hstored, hsome, ?_⟩
    dsimp only
    rw [Function.update_self, Tape.ahead_advance, Function.update_of_ne hapart.symm]
  plain := by
    rintro size ⟨memory, tapes⟩ answer after ⟨_, later, hanswer, rfl, rfl⟩
    obtain ⟨data, hgiven, count, hcount, hthere, hdata, hsome, rfl⟩ :=
      brimming_plain hapart hanswer
    refine ⟨data, hgiven, count, hcount, hthere, hdata, hsome, ?_⟩
    dsimp only
    rw [Function.update_self, Tape.ahead_advance, Function.update_of_ne hapart.symm]
  write := by
    rintro data ⟨memory, tapes⟩ answer after hwithin hanswer
    have hgrowth : growthFault? memory data = none :=
      growthFault?_eq_none (Nat.lt_of_le_of_lt hwithin hreach)
    have hanswer : (steer (.write none data) memory).Leads (brimming dest movable limit) tapes
        answer after := hanswer
    rw [steer, hgrowth] at hanswer
    obtain ⟨rfl, rfl⟩ := hanswer
    exact ⟨memory.write data, ⟨rfl, fun _ => rfl, fun hless => absurd rfl hless⟩, rfl⟩
  note := by
    rintro fact ⟨memory, tapes⟩ answer after ⟨_, later, hanswer, rfl, rfl⟩
    obtain ⟨hgiven, rfl⟩ := brimming_note hanswer
    exact ⟨hgiven, rfl⟩

/-- From the tape in memory into the stream with the limit. -/
theorem pours_emptying [Machine] (reach : Nat) :
    Pours (.steered steer (brimming dest movable limit)) none (some dest) limit reach
      fun state : Tape × (ι → Tape) => (state.1.ahead, state.2 dest, ()) where
  into := by
    rintro size ⟨memory, tapes⟩ answer after ⟨rfl, rfl⟩
    obtain ⟨count, hcount, hthere, hsome, hread⟩ := memory.read_some size
    have hahead : (memory.read size).2.ahead = memory.ahead.drop count := by
      rw [hread, Tape.ahead_advance]
    exact ⟨_, rfl, .inl rfl, count, hcount, hthere, congrArg Prod.fst hread, hsome,
      Prod.ext hahead rfl⟩
  plain := by
    rintro size ⟨memory, tapes⟩ answer after ⟨rfl, rfl⟩
    obtain ⟨count, hcount, hthere, hsome, hread⟩ := memory.read_some size
    have hahead : (memory.read size).2.ahead = memory.ahead.drop count := by
      rw [hread, Tape.ahead_advance]
    exact ⟨_, rfl, count, hcount, hthere, congrArg Prod.fst hread, hsome, Prod.ext hahead rfl⟩
  write := by
    rintro data ⟨memory, tapes⟩ answer after _ ⟨_, later, hanswer, rfl, rfl⟩
    obtain ⟨tape, hbrims, rfl⟩ := hanswer rfl
    refine ⟨tape, hbrims, ?_⟩
    dsimp only
    rw [Function.update_self]
  note := by
    rintro fact ⟨memory, tapes⟩ answer after ⟨_, later, hanswer, rfl, rfl⟩
    obtain ⟨hgiven, rfl⟩ := brimming_note hanswer
    exact ⟨hgiven, rfl⟩

/-- Bytes that fit are taken whole. -/
theorem writeAll_brimming {dest : Channel ι} {data : Bytes} {scratch : Scratch} {tapes : ι → Tape}
    (hfits : Fits limit (tapes dest.handle).position data.length) :
    (writeAll dest data).Ensures (brimming dest.handle movable limit) scratch tapes
      (fun _ scratch' after => scratch' = scratch ∧ after = written dest.handle data tapes)
      (fun _ _ _ => False) := by
  have hall := brim_eq_self_iff.mpr hfits
  rw [writeAll]
  refine Task.Ensures.bind (Task.ensures_request _) ?_
  rintro answer _ after ⟨rfl, hanswer⟩
  obtain ⟨tape, ⟨htape, hgranted, -⟩, rfl⟩ := hanswer rfl
  rw [hall] at htape
  rw [hgranted hall]
  dsimp only
  rw [if_neg (Int.lt_irrefl _)]
  exact Task.ensures_pure ⟨rfl, by rw [htape, written]⟩

/-- A destination that can be moved is moved to where it is not full. -/
theorem moveTo_brimming {dest : Channel ι} {offset whence : Int} {target : Nat} {scratch : Scratch}
    {tapes : ι → Tape}
    (htarget : Tape.destination (tapes dest.handle).position
      (tapes dest.handle).contents.size offset whence = .ok target)
    (hfits : Fits limit 0 offset.natAbs) :
    (moveTo dest offset whence).Ensures (brimming dest.handle true limit) scratch tapes
      (fun _ scratch' after => scratch' = scratch ∧ after = repositioned dest.handle target tapes)
      (fun _ _ _ => False) := by
  have hreaches : (abilities dest.handle true limit dest.handle).reaches offset.natAbs := by
    rw [abilities_dest]
    intro room hroom
    obtain ⟨stop, hstop, rfl⟩ := Option.map_eq_some_iff.mp hroom
    exact Nat.lt_succ_of_le (hfits stop hstop)
  have hmovable : (abilities dest.handle true limit dest.handle).movable = true := by
    rw [abilities_dest]
  refine (brimming_ensures (moveTo_ensures dest htarget fun _ => ⟨hmovable, hreaches⟩)
    (moveTo_asksOnly (moves_unwriting _) offset whence)).mono ?_ ?_
  · rintro _ _ _ ⟨-, rfl, rfl⟩
    exact ⟨rfl, rfl⟩
  · rintro _ _ _ ⟨_, hrefused, -⟩
    exact hrefused trivial

theorem note_brimming (fact : Note) {scratch : Scratch}
    {tapes : ι → Tape} :
    (note fact : Work ι Unit).Ensures (brimming dest movable limit) scratch tapes
      (fun _ scratch' after => scratch' = scratch ∧ after = tapes) (fun _ _ _ => False) :=
  (brimming_ensures (note_ensures fact) (note_asksOnly (notes_unwriting fact))).bad_mono
    fun _ _ _ hrefused => hrefused.1 trivial

namespace World

def limited (grain : Nat) (dest : ι) (limit : Option Nat) : World ι (ι → Tape) where
  tape tapes := tapes
  answer
    | .write stream data, tapes =>
      if stream = dest then
        let taken := brim limit (tapes stream).position data
        ((.ok (some (taken.length : Int)) : Except Fault (Option Int)),
          update tapes stream ((tapes stream).write taken))
      else (plain grain).answer (.write stream data) tapes
    | request, tapes => (plain grain).answer request tapes

theorem limited_isBrimming (grain : Nat) (dest : ι) (limit : Option Nat) :
    (limited grain dest limit).IsBrimming dest true limit := by
  intro request tapes
  have hmovable (stream : ι) : (abilities dest true limit stream).movable = true := by
    rw [abilities]
    split <;> rfl
  cases request with
  | readInto stream size =>
      exact ⟨plain_isTruthful grain _ tapes,
        fun _ _ => plain_isObliging grain (.readInto stream size) tapes rfl⟩
  | read stream size =>
      exact ⟨plain_isTruthful grain _ tapes,
        fun _ _ => plain_isObliging grain (.read stream size) tapes rfl⟩
  | write stream data =>
      rintro rfl
      rw [limited]
      dsimp only
      rw [if_pos rfl]
      refine ⟨_, ⟨rfl, fun hall => ?_, fun _ => .inl ⟨_, rfl, .inl rfl⟩⟩, rfl⟩
      rw [hall]
  | seek stream offset whence =>
      exact ⟨plain_isTruthful grain _ tapes, fun _ _ _ hgranted =>
        plain_isObliging grain (.seek stream offset whence) tapes rfl
          (fun _ hroom => absurd hroom (by simp)) hgranted⟩
  | seekUnknown stream => exact ⟨rfl, fun _ => trivial⟩
  | tell stream => exact ⟨⟨rfl, rfl⟩, fun _ _ => rfl⟩
  | seekable stream =>
      exact ⟨rfl, fun _ => congrArg Except.ok (hmovable stream).symm⟩
  | note fact => exact ⟨rfl, fun _ => rfl⟩

end World

end Stream

end RomImage
