import RomImage.Proofs.Stream.Carry
import RomImage.Proofs.Stream.Position
import RomImage.Proofs.Stream.Requests

/-!
# Destinations with a limit

A destination with a limit takes every byte before it and none from it on, as a full disk does: a
write across the limit stores what comes before, and reports that, or an error of the system.

What a transfer leaves there does not depend on how it is cut into chunks. The bytes that it has to
give are those that the source has, up to the count; if they reach the limit, the destination holds
as many as fit and the write has failed, and if they do not and there are too few, it holds all of
them and the read has failed (`Halts`). A copy from a source into such a destination may be one from
a stream to a stream, or one to or from the tape in memory; `Pours` is what they have in common.
-/

namespace RomImage

inductive Failure.Alike : Failure → Failure → Prop
  | same (failure : Failure) : Alike failure failure
  | shortWrite (name first second : String) :
      Alike (.build (.shortWrite name first)) (.build (.shortWrite name second))

namespace Stream

def brim (limit : Option Nat) (position : Nat) (data : Bytes) : Bytes :=
  match limit with
  | none => data
  | some stop => data.take (stop - position)

def Fits (limit : Option Nat) (position count : Nat) : Prop :=
  ∀ stop ∈ limit, count ≤ stop - position

/-- A write stores what comes before the limit. If that is all it says so; otherwise it tells how
much, or reports an error of the system. -/
def Brims (limit : Option Nat) (data : Bytes) (tape : Tape) (answer : Except Fault (Option Int))
    (after : Tape) : Prop :=
  let taken := brim limit tape.position data
  after = tape.write taken ∧ (taken = data → answer = .ok (some (data.length : Int))) ∧
    (taken ≠ data → (∃ reported, answer = .ok reported ∧ Reports reported taken.length) ∨
      ∃ fault, answer = .error fault ∧ fault.isSystem = true)

theorem Fits.of_le {limit : Option Nat} {position count less : Nat}
    (hfits : Fits limit position count) (hle : less ≤ count) : Fits limit position less :=
  fun stop hstop => Nat.le_trans hle (hfits stop hstop)

theorem fits_none (position count : Nat) : Fits none position count := by
  simp [Fits]

theorem fits_zero (limit : Option Nat) (position : Nat) : Fits limit position 0 :=
  fun _ _ => Nat.zero_le _

/-- Bytes behind others fit if all of them do. -/
theorem fits_add {limit : Option Nat} {position first second : Nat} :
    Fits limit position (first + second) ↔
      Fits limit position first ∧ Fits limit (position + first) second := by
  constructor
  · intro hfits
    refine ⟨hfits.of_le (Nat.le_add_right _ _), fun stop hstop => ?_⟩
    have hboth := hfits stop hstop
    omega
  · rintro ⟨hfirst, hsecond⟩ stop hstop
    have hbefore := hfirst stop hstop
    have hbehind := hsecond stop hstop
    omega

theorem brim_eq_self_iff {limit : Option Nat} {position : Nat} {data : Bytes} :
    brim limit position data = data ↔ Fits limit position data.length := by
  cases limit with
  | none => exact iff_of_true rfl (fits_none _ _)
  | some stop =>
      rw [brim]
      constructor
      · intro hall other hother
        obtain rfl := Option.some.inj hother
        have hlength := congrArg List.length hall
        rw [List.length_take] at hlength
        omega
      · exact fun hfits => List.take_of_length_le (hfits stop rfl)

/-- How bytes that were to be given end: the destination is full, or the source was dry. -/
inductive Halts (source dest : String) (limit : Option Nat) (start : Nat) (data : Bytes)
    (whole : Prop) : Failure → Bytes → Prop
  | full {stop : Nat} {detail : String} (hlimit : stop ∈ limit)
      (hless : stop - start < data.length) :
      Halts source dest limit start data whole (.build (.shortWrite dest detail))
        (data.take (stop - start))
  /-- All have been given, and they are not the whole. -/
  | dry (hfits : Fits limit start data.length) (hshort : ¬ whole) :
      Halts source dest limit start data whole (ofNothing source) data

namespace Halts

variable {source dest : String} {limit : Option Nat} {start : Nat} {first second data bytes : Bytes}
  {whole : Prop} {failure : Failure}

/-- The whole does not fit. -/
theorem not_fits (hhalts : Halts source dest limit start data whole failure bytes)
    (hwhole : whole) : ¬ Fits limit start data.length := by
  intro hfits
  cases hhalts with
  | full hlimit hless => exact absurd (hfits _ hlimit) (Nat.not_le.mpr hless)
  | dry _ hshort => exact hshort hwhole

/-- If all is there, only a full destination ends it, whatever the source is. -/
theorem of_whole {other : Prop} (source' : String)
    (hhalts : Halts source dest limit start data whole failure bytes) (hwhole : whole) :
    Halts source' dest limit start data other failure bytes := by
  cases hhalts with
  | full hlimit hless => exact .full hlimit hless
  | dry _ hshort => exact absurd hwhole hshort

/-- Without a limit only the source ends it, and it has given all that it has. -/
theorem of_none (hhalts : Halts source dest none start data whole failure bytes) :
    bytes = data ∧ ¬ whole ∧ failure = ofNothing source := by
  cases hhalts with
  | full hlimit => exact absurd hlimit (by simp)
  | dry _ hshort => exact ⟨rfl, hshort, rfl⟩

/-- It ends in one way only, if the details of a short write are left out. -/
theorem alike {failure' : Failure} {bytes' : Bytes}
    (hhalts : Halts source dest limit start data whole failure bytes)
    (hhalts' : Halts source dest limit start data whole failure' bytes') :
    failure.Alike failure' ∧ bytes = bytes' := by
  cases hhalts with
  | full hlimit hless =>
      cases hhalts' with
      | full hlimit' _ =>
          obtain rfl := Option.some.inj (hlimit.symm.trans hlimit')
          exact ⟨.shortWrite _ _ _, rfl⟩
      | dry hfits _ => exact absurd (hfits _ hlimit) (Nat.not_le.mpr hless)
  | dry hfits _ =>
      cases hhalts' with
      | full hlimit hless => exact absurd (hfits _ hlimit) (Nat.not_le.mpr hless)
      | dry _ _ => exact ⟨.same _, rfl⟩

/-- What ends while its first part is given ends so with more behind. -/
theorem before {other : Prop} (second : Bytes)
    (hhalts : Halts source dest limit start first whole failure bytes) (hwhole : whole) :
    Halts source dest limit start (first ++ second) other failure bytes := by
  cases hhalts with
  | full hlimit hless =>
      rw [← List.take_append_of_le_length (Nat.le_of_lt hless)]
      refine .full hlimit ?_
      rw [List.length_append]
      omega
  | dry _ hshort => exact absurd hwhole hshort

/-- What ends behind its first part ends so with that in front. -/
theorem behind {other : Prop} (hfirst : Fits limit start first.length)
    (hhalts : Halts source dest limit (start + first.length) second whole failure bytes)
    (hother : other → whole) :
    Halts source dest limit start (first ++ second) other failure (first ++ bytes) := by
  cases hhalts with
  | @full stop detail hlimit hless =>
      have hroom := hfirst stop hlimit
      have htaken : first ++ second.take (stop - (start + first.length))
          = (first ++ second).take (stop - start) := by
        rw [List.take_append, List.take_of_length_le hroom, Nat.sub_add_eq]
      rw [htaken]
      refine .full hlimit ?_
      rw [List.length_append]
      omega
  | dry hsecond hshort =>
      refine .dry ?_ fun hwhole => hshort (hother hwhole)
      rw [List.length_append]
      exact fits_add.mpr ⟨hfirst, hsecond⟩

end Halts

section InOrder

variable {κ : Type} {limit : Option Nat} {tape : Tape} {data : Bytes}

structure InOrder (limit : Option Nat) (tape : Tape) (data : Bytes) (given : Nat) (hand : Bytes)
    (now : Tape) : Prop where
  inside : given + hand.length ≤ data.length
  next : hand = (data.drop given).take hand.length
  fits : Fits limit tape.position given
  tape_eq : now = tape.write (data.take given)

theorem InOrder.start (limit : Option Nat) (tape : Tape) (data : Bytes) :
    InOrder limit tape data 0 [] tape :=
  ⟨Nat.zero_le _, rfl, fits_zero _ _, (Tape.write_nil _).symm⟩

theorem InOrder.position_eq {given : Nat} {hand : Bytes} {now : Tape}
    (horder : InOrder limit tape data given hand now) :
    now.position = tape.position + given := by
  have hinside := horder.inside
  rw [horder.tape_eq, Tape.position_write, List.length_take_of_le (by omega)]

/-- The next bytes are taken in hand. -/
theorem InOrder.take {given count : Nat} {now : Tape}
    (horder : InOrder limit tape data given [] now) (hinside : given + count ≤ data.length) :
    InOrder limit tape data given ((data.drop given).take count) now := by
  have hlength : ((data.drop given).take count).length = count := by
    rw [List.length_take, List.length_drop]
    omega
  refine ⟨by rwa [hlength], by rw [hlength], horder.fits, horder.tape_eq⟩

/-- A write of less than it is offered amounts to a short write, whatever it answers. -/
theorem Brims.refused {hand : Bytes} {now after : Tape} {answer : Except Fault (Option Int)}
    (hspan : hand.length < Nat.pow 10 Text.digitLimit) (hbrims : Brims limit hand now answer after)
    (hless : brim limit now.position hand ≠ hand) (dest : Channel κ) :
    ∃ detail, Request.failure? (fun _ => dest.name) (.write dest.handle hand) answer
      = some (.build (.shortWrite dest.name detail)) := by
  have hshorter : (brim limit now.position hand).length < hand.length := by
    cases limit with
    | none => exact absurd rfl hless
    | some stop =>
        by_contra hall
        exact hless (List.take_of_length_le (by rw [brim, List.length_take] at hall; omega))
  obtain ⟨-, -, hrefused⟩ := hbrims
  obtain ⟨reported, rfl, hsome | ⟨rfl, hnone⟩⟩ | ⟨fault, rfl, hsystem⟩ := hrefused hless
  · subst hsome
    obtain ⟨detail, hdetail⟩ : ∃ detail,
        ofCount dest.name (brim limit now.position hand).length hand.length
          = .build (.shortWrite dest.name detail) := ofCount_eq _ (by omega)
    have hcount : ((brim limit now.position hand).length : Int) < hand.length := by omega
    exact ⟨detail, (if_pos hcount).trans (congrArg some hdetail)⟩
  · obtain ⟨detail, hdetail⟩ : ∃ detail, ofCount dest.name 0 hand.length
        = .build (.shortWrite dest.name detail) := ofCount_eq _ (by omega)
    exact ⟨detail, congrArg some hdetail⟩
  · exact ⟨fault.reason, congrArg some (if_pos hsystem)⟩

/-- A write puts down what is in hand, or the destination is full. -/
theorem InOrder.write {dest : Channel κ} {given : Nat} {hand : Bytes} {now after : Tape}
    {answer : Except Fault (Option Int)} (hspan : hand.length < Nat.pow 10 Text.digitLimit)
    (horder : InOrder limit tape data given hand now) (hbrims : Brims limit hand now answer after)
    (source : String) (whole : Prop) :
    Request.Comes dest.name (.write dest.handle hand) answer
      (InOrder limit tape data (given + hand.length) [] after)
      (fun failure => ∃ bytes, Halts source dest.name limit tape.position data whole failure bytes ∧
        after = tape.write bytes) := by
  have hinside := horder.inside
  have hposition := horder.position_eq
  have hgiven : (data.take given).length = given := List.length_take_of_le (by omega)
  have hnow (more : Nat) : now.write (hand.take more)
      = tape.write (data.take (given + min more hand.length)) := by
    have hmore : hand.take more = (data.drop given).take (min more hand.length) :=
      (congrArg (List.take more) horder.next).trans List.take_take
    rw [horder.tape_eq, Tape.write_append, hmore, List.take_add]
  by_cases hall : brim limit now.position hand = hand
  · obtain ⟨hafter, hgranted, -⟩ := hbrims
    rw [hgranted hall]
    refine .of_none ⟨?_, rfl, ?_, ?_⟩ (if_neg (Int.lt_irrefl _))
    · exact hinside
    · have hroom := brim_eq_self_iff.mp hall
      rw [hposition] at hroom
      exact fits_add.mpr ⟨horder.fits, hroom⟩
    · have hwhole := hnow hand.length
      rw [List.take_length, Nat.min_self] at hwhole
      rw [hafter, hall, hwhole]
  · obtain ⟨detail, hfailed⟩ := hbrims.refused hspan hall dest
    refine .of_some ?_ hfailed
    cases limit with
    | none => exact absurd rfl hall
    | some stop =>
        have hroom := horder.fits stop rfl
        have hless : stop - now.position < hand.length := by
          by_contra hmore
          exact hall (List.take_of_length_le (Nat.not_lt.mp hmore))
        refine ⟨_, .full rfl (by omega), ?_⟩
        have hstop : given + min (stop - now.position) hand.length = stop - tape.position := by
          omega
        rw [hbrims.1, brim, hnow, hstop]

end InOrder

section Pours

variable {κ τ ρ : Type}

/-- What a conduct shows of a state: the bytes that the source has ahead, the tape of the
destination, and whatever else stays. -/
abbrev View (τ ρ : Type) : Type := τ → Bytes × Tape × ρ

def HandsOver (view : View τ ρ) (size : Nat) (state : τ) (data : Bytes) (after : τ) : Prop :=
  ∃ count ≤ size, count ≤ (view state).1.length ∧ data = (view state).1.take count ∧
    (0 < size → (view state).1 ≠ [] → 0 < count) ∧
    view after = ((view state).1.drop count, (view state).2)

/-- A source hands over its bytes, and a destination takes them up to a limit. No write is
considered that goes past the reach. -/
structure Pours (conduct : Conduct (interface κ) τ) (source dest : κ) (limit : Option Nat)
    (reach : Nat) (view : View τ ρ) : Prop where
  into : ∀ size state (answer : Except Fault Delivery) after,
    conduct (.readInto source size) state answer after →
    ∃ delivery, answer = .ok delivery ∧ Reports delivery.reported delivery.stored.length ∧
      HandsOver view size state delivery.stored after
  plain : ∀ size state (answer : Except Fault (Option Bytes)) after,
    conduct (.read source size) state answer after →
    ∃ data, answer = .ok data ∧ HandsOver view size state (data.getD []) after
  write : ∀ data state (answer : Except Fault (Option Int)) after,
    (view state).2.1.position + data.length ≤ reach →
    conduct (.write dest data) state answer after →
    ∃ tape, Brims limit data (view state).2.1 answer tape ∧
      view after = ((view state).1, tape, (view state).2.2)
  note : ∀ fact state (answer : Except Fault Unit) after,
    conduct (.note fact) state answer after → answer = .ok () ∧ view after = view state

variable {conduct : Conduct (interface κ) τ} {source dest : Channel κ} {limit : Option Nat}
  {reach span : Nat} {view : View τ ρ} {scratch : Scratch} {state : τ} {ahead : Bytes}
  {tape : Tape} {aside : ρ}

def Halted (source dest : String) (limit : Option Nat) (tape : Tape) (data : Bytes) (whole : Prop)
    (aside : ρ) (view : View τ ρ) (failure : Failure) (after : τ) : Prop :=
  ∃ bytes, Halts source dest limit tape.position data whole failure bytes ∧
    (view after).2 = (tape.write bytes, aside)

/-- So much of the data is given and some is in hand, with so many bytes still to come; and the
source has ahead what it would have by then. -/
def Underway (limit : Option Nat) (tape : Tape) (data : Bytes) (ahead : Nat → Bytes) (aside : ρ)
    (count : Nat) (view : View τ ρ) (hand : Bytes) (left : Nat) (state : τ) : Prop :=
  ∃ given, given + hand.length + left = count ∧
    InOrder limit tape data given hand (view state).2.1 ∧
    (view state).1 = ahead (given + hand.length) ∧ (view state).2.2 = aside

theorem Pours.gives (hpours : Pours conduct source.handle dest.handle limit reach view)
    (hspan : span < Nat.pow 10 Text.digitLimit) {count : Nat} {data : Bytes}
    (ahead : Nat → Bytes) (whole : Prop) (hreach : tape.position + count ≤ reach) :
    Gives conduct dest span (Underway limit tape data ahead aside count view)
      (Halted source.name dest.name limit tape data whole aside view) where
  write := by
    rintro hand left state answer after hfits ⟨given, hcount, horder, hahead, haside⟩ hanswer
    have hposition := horder.position_eq
    obtain ⟨now, hbrims, hafter⟩ := hpours.write hand state answer after (by omega) hanswer
    refine (horder.write (Nat.lt_of_le_of_lt hfits hspan) hbrims source.name whole).mono ?_ ?_
    · intro hnext
      refine ⟨given + hand.length, hcount, ?_⟩
      rw [hafter]
      exact ⟨hnext, hahead, haside⟩
    · rintro failure ⟨bytes, hhalts, rfl⟩
      refine ⟨bytes, hhalts, ?_⟩
      rw [hafter, haside]
  note := by
    rintro fact left state answer after ⟨given, hcount, horder, hahead, haside⟩ hanswer
    obtain ⟨rfl, hview⟩ := hpours.note fact state answer after hanswer
    refine .of_none ⟨given, hcount, ?_⟩ rfl
    rw [hview]
    exact ⟨horder, hahead, haside⟩

/-- A read of a copy takes the next bytes in hand, or all that the source had has been given. -/
theorem Underway.take {count size left : Nat} {after : τ} {data : Bytes}
    (hsize : 0 < size) (hleft : size ≤ left)
    (hunderway : Underway limit tape (ahead.take count) ahead.drop aside count view [] left state)
    (hhands : HandsOver view size state data after) :
    data.length ≤ size ∧
      (data ≠ [] → Underway limit tape (ahead.take count) ahead.drop aside count view data
        (left - data.length) after) ∧
      (data = [] → ∀ source dest : String, Halted source dest limit tape (ahead.take count)
        (count ≤ ahead.length) aside view (ofNothing source) after) := by
  obtain ⟨given, hcount, horder, hahead, haside⟩ := hunderway
  obtain ⟨got, hgot, hthere, rfl, hsome, hafter⟩ := hhands
  rw [List.length_nil, Nat.add_zero] at hcount hahead
  have hinside := horder.inside
  have hgiven : given ≤ ahead.length := by
    rw [List.length_take, List.length_nil] at hinside
    omega
  have hahead : (view state).1 = ahead.drop given := hahead
  rw [hahead] at hthere hsome hafter ⊢
  rw [List.length_drop] at hthere
  have hlength : ((ahead.drop given).take got).length = got := by
    rw [List.length_take, List.length_drop]
    omega
  have hnext : (ahead.drop given).take got = ((ahead.take count).drop given).take got := by
    rw [List.drop_take, List.take_take, Nat.min_eq_left (by omega)]
  refine ⟨by omega, fun _ => ⟨given, by omega, ?_⟩, fun hnothing source dest => ?_⟩
  · rw [hlength, hafter]
    dsimp only
    rw [List.drop_drop]
    refine ⟨?_, rfl, haside⟩
    rw [hnext]
    refine horder.take ?_
    rw [List.length_take]
    omega
  · -- Nothing has been handed over although something was wanted, so nothing is ahead.
    have hnone : got = 0 := by rw [← hlength, hnothing, List.length_nil]
    have hdry : ahead.length ≤ given := by
      by_contra hmore
      refine absurd (hsome hsize (List.ne_nil_of_length_pos ?_)) (by omega)
      rw [List.length_drop]
      omega
    have hall : (ahead.take count).take given = ahead.take count := by
      refine List.take_of_length_le ?_
      rw [List.length_take]
      omega
    have hlong : (ahead.take count).length = given := by
      rw [List.length_take]
      omega
    refine ⟨_, .dry (hlong ▸ horder.fits) (by omega), ?_⟩
    have htape := horder.tape_eq
    rw [hall] at htape
    rw [hafter, hnone, List.drop_zero]
    exact Prod.ext htape haside

theorem Pours.carries (hpours : Pours conduct source.handle dest.handle limit reach view)
    (hspan : span < Nat.pow 10 Text.digitLimit) {count : Nat}
    (hreach : tape.position + count ≤ reach) :
    Carries conduct source dest span
      (Underway limit tape (ahead.take count) ahead.drop aside count view)
      (Halted source.name dest.name limit tape (ahead.take count) (count ≤ ahead.length) aside
        view) where
  toGives := hpours.gives hspan _ _ hreach
  into := by
    intro size left state answer after hsize hleft hunderway hanswer
    obtain ⟨delivery, rfl, hreports, hhands⟩ := hpours.into size state answer after hanswer
    obtain ⟨hlength, hnext, hdry⟩ := hunderway.take hsize hleft hhands
    have hgot : delivery.reported.getD 0 = (delivery.stored.length : Int) := by
      obtain hsome | ⟨hnone, hzero⟩ := hreports
      · rw [hsome, Option.getD_some]
      · rw [hnone, hzero, Option.getD_none, Int.natCast_zero]
    by_cases hnothing : delivery.stored = []
    · have hzero : delivery.reported.getD 0 = 0 := by rw [hgot, hnothing]; rfl
      exact .of_some (hdry hnothing source.name dest.name) (if_pos hzero)
    · have hpositive := List.length_pos_iff.mpr hnothing
      have hnonzero : ¬ delivery.reported.getD 0 = 0 := by omega
      have hreported : delivery.reported = some (delivery.stored.length : Int) := by
        obtain hsome | ⟨-, hzero⟩ := hreports
        · exact hsome
        · omega
      refine .of_none ⟨delivery, rfl, _, hlength, hpositive, hreported, fun remains _ => ?_⟩
        (if_neg hnonzero)
      rw [Bytes.first_eq, List.take_of_length_le hlength, List.take_left]
      exact hnext hnothing
  plain := by
    intro size left state answer after hsize hleft hunderway hanswer
    obtain ⟨data, rfl, hhands⟩ := hpours.plain size state answer after hanswer
    obtain ⟨hlength, hnext, hdry⟩ := hunderway.take hsize hleft hhands
    by_cases hnothing : data.getD [] = []
    · exact .of_some (hdry hnothing source.name dest.name) (if_pos hnothing)
    · obtain _ | data := data
      · exact absurd rfl hnothing
      · exact .of_none ⟨data, rfl, hlength, hnext hnothing⟩ (if_neg hnothing)

/-- A copy gives the bytes that are asked for if they are there and fit, and otherwise as many as
there are or fit. -/
theorem copy_pours [Machine] (hpours : Pours conduct source.handle dest.handle limit reach view)
    (hspan : 0 < span) (hprintable : span < Nat.pow 10 Text.digitLimit) {count : Nat}
    (hreach : tape.position + count ≤ reach) (hscratch : HasBuffer span scratch)
    (hview : view state = (ahead, tape, aside)) :
    (copy source dest count).Ensures conduct scratch state
      (fun _ scratch' after => HasBuffer span scratch' ∧ count ≤ ahead.length ∧
        Fits limit tape.position count ∧
        view after = (ahead.drop count, tape.write (ahead.take count), aside))
      (fun failure _ after => Halted source.name dest.name limit tape (ahead.take count)
        (count ≤ ahead.length) aside view failure after) := by
  have hstart : Underway limit tape (ahead.take count) ahead.drop aside count view []
      (count + 0) state := by
    refine ⟨0, by rw [List.length_nil]; omega, ?_⟩
    rw [hview]
    exact ⟨.start _ _ _, rfl, rfl⟩
  refine (copy_carries (hpours.carries hprintable hreach) hspan count hscratch hstart).mono ?_
    fun _ _ _ hhalted => hhalted
  rintro _ scratch' after ⟨hscratch', given, hcount, horder, hahead, haside⟩
  rw [List.length_nil, Nat.add_zero] at hcount
  subst hcount
  have hinside := horder.inside
  have htape := horder.tape_eq
  rw [List.length_take, List.length_nil] at hinside
  rw [List.take_take, Nat.min_self] at htape
  exact ⟨hscratch', by omega, horder.fits, Prod.ext hahead (Prod.ext htape haside)⟩

/-- A fill gives the copies that are asked for if they fit, and otherwise as many as fit. -/
theorem fill_pours [Machine] (hpours : Pours conduct source.handle dest.handle limit reach view)
    (hspan : 0 < span) (hprintable : span < Nat.pow 10 Text.digitLimit) (value : UInt8)
    {count : Nat} (hreach : tape.position + count ≤ reach) (hscratch : HasBuffer span scratch)
    (hview : view state = (ahead, tape, aside)) :
    (fill dest value.toNat count).Ensures conduct scratch state
      (fun _ scratch' after => HasBuffer span scratch' ∧ Fits limit tape.position count ∧
        view after = (ahead, tape.write (List.replicate count value), aside))
      (fun failure _ after => Halted source.name dest.name limit tape (List.replicate count value)
        True aside view failure after) := by
  have hstart : Underway limit tape (List.replicate count value) (fun _ => ahead) aside count view
      [] (count + 0) state := by
    refine ⟨0, by rw [List.length_nil]; omega, ?_⟩
    rw [hview]
    exact ⟨.start _ _ _, rfl, rfl⟩
  refine (fill_gives (hpours.gives hprintable _ True hreach) ?_ count 0 hspan hscratch
    hstart).mono ?_ fun _ _ _ hhalted => hhalted
  · rintro chunk - left state ⟨given, hcount, horder, hahead, haside⟩
    rw [List.length_nil, Nat.add_zero] at hcount hahead
    have hnext : List.replicate chunk value
        = ((List.replicate count value).drop given).take chunk := by
      rw [List.drop_replicate, List.take_replicate, Nat.min_eq_left (by omega)]
    have htaken : InOrder limit tape (List.replicate count value) given
        (List.replicate chunk value) (view state).2.1 := by
      rw [hnext]
      refine horder.take ?_
      rw [List.length_replicate]
      omega
    refine ⟨given, ?_, htaken, hahead, haside⟩
    rw [List.length_replicate]
    omega
  · rintro _ scratch' after ⟨hscratch', given, hcount, horder, hahead, haside⟩
    rw [List.length_nil, Nat.add_zero] at hcount
    subst hcount
    have htape := horder.tape_eq
    rw [List.take_replicate, Nat.min_self] at htape
    exact ⟨hscratch', horder.fits, Prod.ext hahead (Prod.ext htape haside)⟩

end Pours

end Stream

end RomImage
