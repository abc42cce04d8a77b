import RomImage.Proofs.Rule.Layout
import RomImage.Proofs.Stream.Calls

/-!
# What a rule makes

A rule measures the image, refuses it if it is too large, and lays out the container. So it reports
a finished container only when the container is there, whatever the streams do
(`Rule.apply_ensures` without an obligation); and when the streams oblige, it does finish.
-/

namespace RomImage

open RomImage.Stream

namespace Rule

variable {ι σ : Type} [DecidableEq ι] {ability : ι → Ability} {obliged : Prop}

def report (rule : Rule) (size : Nat) : Summary :=
  ⟨rule.spec.kind, size, rule.containerSize, rule.ceiling - size⟩

/-- A build is within the abilities of its streams: the image can be measured and is ahead as a
whole, and there is room for the container, in memory as well if it has to be staged. -/
structure Ready [Machine] (rule : Rule) (ability : ι → Ability) (source dest : Channel ι)
    (tapes : ι → Tape) : Prop where
  readable : (ability source.handle).readable = true
  movable : (ability source.handle).movable = true
  reaches : (ability source.handle).reaches (tapes source.handle).position
  whole : (tapes source.handle).contents.size ≤ (tapes source.handle).ahead.length
  takes : (ability dest.handle).takes ((tapes dest.handle).position + rule.containerSize)
  memory : rule.layout = .patched →
    (dest.answersSeekable && (ability dest.handle).movable) = false →
      rule.containerSize < Machine.memory

omit [DecidableEq ι] in
/-- A rule ends as its layout does, once the image is measured and fits, under any conduct.
Something is held of the state meanwhile. -/
theorem apply_ensures_of_held [Machine] {σ : Type} {conduct : Conduct (interface ι) σ} (rule : Rule)
    (source dest : Channel ι) {scratch : Scratch} {buffer : Buffer}
    (hbuffer : scratch.buffer = .ok buffer) {state : σ} {size : Nat} (held : σ → Prop)
    {good : Scratch → σ → Prop} {bad : Failure → Scratch → σ → Prop}
    (hmeasure : (measure source).Ensures conduct (.ready buffer) state
      (fun value scratch' after => value = some (size : Int) ∧ scratch' = .ready buffer ∧
        held after) bad)
    (hlarge : ∀ state, held state → rule.ceiling < size →
      bad (.imageTooLarge source.name size rule.ceiling) (.ready buffer) state)
    (hnote : ∀ state, held state →
      (note (.building rule.spec.kind size rule.ceiling rule.containerSize) : Work ι Unit).Ensures
        conduct (.ready buffer) state
        (fun _ scratch' after => scratch' = .ready buffer ∧ held after) bad)
    (hlay : ∀ state, held state → size ≤ rule.ceiling →
      (rule.lay source dest size).Ensures conduct (.ready buffer) state (fun _ => good) bad) :
    (rule.apply source dest).Ensures conduct scratch state
      (fun summary scratch' after => summary = rule.report size ∧ size ≤ rule.ceiling ∧
        good scratch' after) bad := by
  rw [apply]
  refine Task.Ensures.bind (Task.ensures_buffer hbuffer) ?_
  rintro buffer _ state ⟨rfl, rfl, rfl⟩
  refine Task.Ensures.bind hmeasure ?_
  rintro _ _ state ⟨rfl, rfl, hheld⟩
  dsimp only
  by_cases hfits : size ≤ rule.ceiling
  · rw [if_neg (by omega)]
    refine Task.Ensures.bind (hnote state hheld) ?_
    rintro _ _ state ⟨rfl, hheld⟩
    refine Task.Ensures.bind (hlay state hheld hfits) ?_
    intro _ scratch' after hgood
    exact Task.ensures_pure ⟨rfl, hfits, hgood⟩
  · rw [if_pos (by omega)]
    exact Task.ensures_fail (hlarge state hheld (by omega))

omit [DecidableEq ι] in
/-- The same where nothing changes until the layout begins. -/
theorem apply_ensures_of_lay [Machine] {σ : Type} {conduct : Conduct (interface ι) σ} (rule : Rule)
    (source dest : Channel ι) {scratch : Scratch} {buffer : Buffer}
    (hbuffer : scratch.buffer = .ok buffer) {state : σ} {size : Nat}
    {good : Scratch → σ → Prop} {bad : Failure → Scratch → σ → Prop}
    (hmeasure : (measure source).Ensures conduct (.ready buffer) state
      (fun value scratch' after => value = some (size : Int) ∧ scratch' = .ready buffer ∧
        after = state) bad)
    (hlarge : rule.ceiling < size →
      bad (.imageTooLarge source.name size rule.ceiling) (.ready buffer) state)
    (hnote : (note (.building rule.spec.kind size rule.ceiling rule.containerSize) :
      Work ι Unit).Ensures conduct (.ready buffer) state
      (fun _ scratch' after => scratch' = .ready buffer ∧ after = state) bad)
    (hlay : size ≤ rule.ceiling →
      (rule.lay source dest size).Ensures conduct (.ready buffer) state (fun _ => good) bad) :
    (rule.apply source dest).Ensures conduct scratch state
      (fun summary scratch' after => summary = rule.report size ∧ size ≤ rule.ceiling ∧
        good scratch' after) bad := by
  refine apply_ensures_of_held rule source dest hbuffer (· = state) hmeasure ?_ ?_ ?_
  · rintro _ rfl
    exact hlarge
  · rintro _ rfl
    exact hnote
  · rintro _ rfl
    exact hlay

/-- A rule ends with a report only over a container that is laid out. It fails over an image that is
too large before anything has happened, and otherwise only where the streams do not oblige. -/
theorem apply_ensures [Machine] {rule : Rule} (hmatched : rule.Matched) (source dest : Channel ι)
    (hapart : source.handle ≠ dest.handle) {scratch : Scratch} {buffer : Buffer}
    (hbuffer : scratch.buffer = .ok buffer) (hspan : 0 < buffer.length) {tapes : ι → Tape}
    {size : Nat} (hsize : (tapes source.handle).contents.size = size)
    (hready : obliged → rule.Ready ability source dest tapes) :
    (rule.apply source dest).Ensures (conduct ability obliged) scratch tapes
      (fun summary scratch' after => summary = rule.report size ∧ size ≤ rule.ceiling ∧
        size ≤ (tapes source.handle).ahead.length ∧ HasBuffer buffer.length scratch' ∧
        rule.Laid source.handle dest.handle size tapes after)
      (fun failure scratch' after => HasBuffer buffer.length scratch' ∧
        ((rule.ceiling < size ∧ after = tapes ∧
            failure = .imageTooLarge source.name size rule.ceiling) ∨
          ¬ obliged ∧ ((∃ position, after = repositioned source.handle position tapes) ∨
            rule.Begun source.handle dest.handle size tapes after))) := by
  have hkept : HasBuffer buffer.length (.ready buffer) := ⟨buffer, rfl, rfl⟩
  subst hsize
  refine apply_ensures_of_lay rule source dest hbuffer ((measure_ensures source ?_).bad_mono ?_) ?_
    ((note_ensures _).bad_mono ?_) ?_
  · intro hobliged
    exact ⟨(hready hobliged).movable, (hready hobliged).reaches⟩
  · rintro failure _ _ ⟨position, hrefused, rfl, rfl, -⟩
    exact ⟨hkept, .inr ⟨hrefused, .inl ⟨position, rfl⟩⟩⟩
  · intro hlarge
    exact ⟨hkept, .inl ⟨hlarge, rfl, rfl⟩⟩
  · rintro failure _ tapes ⟨hrefused, rfl, rfl, -⟩
    refine ⟨hkept, .inr ⟨hrefused, .inl ⟨(tapes source.handle).position, ?_⟩⟩⟩
    exact (repositioned_position _ _).symm
  intro hfits
  have htarget : (tapes source.handle).contents.size ≤ rule.targetSize :=
    Nat.le_trans hfits hmatched.ceiling_le
  refine (lay_ensures hmatched source dest hapart hspan htarget hkept ?_).bad_mono ?_
  · intro hobliged
    obtain ⟨hreadable, -, -, hwhole, htakes, hmemory⟩ := hready hobliged
    exact ⟨hreadable, hwhole, htakes, hmemory⟩
  · rintro failure scratch' _ ⟨hrefused, hscratch', hbegun⟩
    exact ⟨hscratch', .inr ⟨hrefused, .inr hbegun⟩⟩

/-- What is laid out on an empty destination is the container. -/
theorem Laid.bytes_dest {rule : Rule} (hmatched : rule.Matched) {source dest : ι}
    (hapart : source ≠ dest) {size : Nat} {tapes after : ι → Tape} (hempty : tapes dest = .empty)
    (hthere : size ≤ (tapes source).ahead.length) (hsize : size ≤ rule.targetSize)
    (hlaid : rule.Laid source dest size tapes after) :
    (after dest).contents.bytes
      = rule.spec.container rule.targetSize ((tapes source).ahead.take size) := by
  obtain rfl | ⟨patch, hpatch, hlead, rfl⟩ := hlaid
  · rw [laid_dest hapart, hempty, Tape.bytes_write_empty]
  · have hwritten (image : Bytes) : (Tape.empty.write (rule.area image)).contents.bytes
        = rule.area image := Tape.bytes_write_empty _
    have hfits : ((tapes source).ahead.take size).length ≤ rule.targetSize := by
      rwa [List.length_take_of_le hthere]
    have hinside : patch.stop ≤ (Tape.empty.write
        (rule.area ((tapes source).ahead.take size))).contents.size := by
      rw [← Contents.length_bytes, hwritten, length_area hfits, ← containerSize_eq hlead]
      exact hmatched.stop_le hpatch
    rw [Function.update_self, hempty, Tape.bytes_patched hinside, hwritten,
      container_eq_over hlead hpatch]

/-- Where streams oblige, an image that fits ends with its report. -/
theorem exists_report [Machine] {rule : Rule} (hmatched : rule.Matched) {world : World ι σ}
    (htruthful : world.IsTruthful) (hobliging : world.IsObliging ability) {source dest : Channel ι}
    (hapart : source.handle ≠ dest.handle) {scratch : Scratch} {buffer : Buffer}
    (hbuffer : scratch.buffer = .ok buffer) (hspan : 0 < buffer.length) {state : σ} {size : Nat}
    (hsize : (world.tape state source.handle).contents.size = size) (hfits : size ≤ rule.ceiling)
    (hready : rule.Ready ability source dest (world.tape state)) :
    ∃ scratch' after, world.run scratch (rule.apply source dest) state
      = ((.ok (rule.report size), scratch'), after) := by
  have hends := World.run_ends htruthful (fun _ : True => hobliging)
    (apply_ensures hmatched source dest hapart hbuffer hspan hsize fun _ => hready)
  obtain ⟨_, scratch', after, hrun, rfl, -⟩ | ⟨_, _, _, -, -, hbad⟩ := hends
  · exact ⟨scratch', after, hrun⟩
  · obtain ⟨hlarge, -⟩ | ⟨hrefused, -⟩ := hbad
    · exact absurd hfits (Nat.not_le_of_lt hlarge)
    · exact absurd trivial hrefused

/-- A report is over the container of the whole image, whatever the streams do. -/
theorem reported_container [Machine] {rule : Rule} (hmatched : rule.Matched) {world : World ι σ}
    (htruthful : world.IsTruthful) {source dest : Channel ι} (hapart : source.handle ≠ dest.handle)
    {scratch scratch' : Scratch} {buffer : Buffer} (hbuffer : scratch.buffer = .ok buffer)
    (hspan : 0 < buffer.length) {state after : σ} {summary : Summary}
    (hempty : world.tape state dest.handle = .empty)
    (hrun : world.run scratch (rule.apply source dest) state = ((.ok summary, scratch'), after)) :
    let image := (world.tape state source.handle).contents.bytes
    summary = rule.report image.length ∧ image.length ≤ rule.ceiling ∧
      (image ≠ [] → (world.tape state source.handle).position = 0) ∧
      (world.tape after dest.handle).contents.bytes
        = rule.spec.container rule.targetSize image := by
  intro image
  have hsize : (world.tape state source.handle).contents.size = image.length :=
    (Contents.length_bytes _).symm
  obtain ⟨hreport, hfits, hthere, -, hlaid⟩ := World.run_ok (fun _ => ⟨true, true, true, none⟩)
    htruthful hrun (apply_ensures hmatched source dest hapart hbuffer hspan hsize False.elim)
  obtain ⟨hahead, hstart⟩ := Tape.whole_ahead (Nat.le_trans (Nat.le_of_eq hsize) hthere)
  refine ⟨hreport, hfits, hstart, ?_⟩
  have hdest := hlaid.bytes_dest hmatched hapart hempty hthere
    (Nat.le_trans hfits hmatched.ceiling_le)
  rwa [hahead, List.take_of_length_le (Nat.le_refl _)] at hdest

omit [DecidableEq ι] in
/-- No call is made after one that failed. -/
theorem apply_stops [Machine] {τ : Type} {fine ended : τ → Prop}
    (hended : ∀ state, fine state → ended state) (rule : Rule) (source dest : Channel ι) :
    StopsAtFailure fine ended (rule.apply source dest) :=
  .of_heeds hended fun scratch => rule.apply_heeds trivial trivial scratch

/-- **A container is laid out exactly.** Under a matched rule, an image that fits ends as its
container, byte for byte, with the report that belongs to it, however the source cuts it into reads
and whatever the buffer holds. Every specification that is read from data makes a matched rule with
a layout that it fits, and the rules that come with the tool are matched, plain padding to every
size among them. -/
theorem apply_makes_container [Machine] :
    (∀ size : Nat, ∃ rule, pad (.integer size) = .ok rule ∧ rule.Matched) ∧
    stc.Matched ∧ pak3.Matched ∧
    (∀ datum (rule : Rule), Spec.read datum = .ok rule.spec → rule.layout.Fits rule.spec →
      rule.Matched) ∧
    ∀ {ι σ : Type} [DecidableEq ι] (world : World ι σ) (ability : ι → Ability) (rule : Rule)
      (source dest : Channel ι) (scratch : Scratch) (buffer : Buffer) (image : Bytes) (state : σ),
      rule.Matched → image.length ≤ rule.ceiling →
      world.IsTruthful → world.IsObliging ability → source.handle ≠ dest.handle →
      world.Holds ability state source image →
      world.Accepts ability state dest rule.containerSize →
      scratch.buffer = .ok buffer → 0 < buffer.length →
      ∃ scratch' after, world.run scratch (rule.apply source dest) state
          = ((.ok ⟨rule.spec.kind, image.length, rule.spec.leadSize + rule.targetSize,
              rule.ceiling - image.length⟩, scratch'), after) ∧
        (world.tape after dest.handle).contents.bytes
          = rule.spec.container rule.targetSize image := by
  refine ⟨fun size => ?_, IsShipped.stc.matched, IsShipped.pak3.matched, ?_, ?_⟩
  · obtain ⟨rule, hpad, -⟩ := pad_integer size
    exact ⟨rule, hpad, (IsShipped.pad hpad).matched⟩
  · intro datum rule hread hfits
    exact ⟨Spec.wellFormed_of_read hread, hfits⟩
  intro ι σ _ world ability rule source dest scratch buffer image state hmatched hceiling htruthful
    hobliging hapart hsource hdest hbuffer hspan
  have hsize : (world.tape state source.handle).contents.size = image.length := by
    rw [← hsource.bytes, Contents.length_bytes]
  have hahead : (world.tape state source.handle).ahead = image := by
    rw [Tape.ahead, hsource.start, hsource.bytes, List.drop_zero]
  have hready : rule.Ready ability source dest (world.tape state) := by
    refine ⟨hsource.readable, hsource.movable, ?_, ?_, ?_, ?_⟩
    · rw [hsource.start]
      exact hsource.reaches
    · exact Nat.le_of_eq (by rw [hsize, hahead])
    · rw [hdest.empty, Tape.empty, Nat.zero_add]
      exact hdest.takes
    · intro _ hstaged
      rw [hdest.asks, hdest.movable] at hstaged
      exact absurd hstaged (by decide)
  obtain ⟨scratch', after, hrun⟩ :=
    exists_report hmatched htruthful hobliging hapart hbuffer hspan hsize hceiling hready
  obtain ⟨-, -, -, hbytes⟩ :=
    reported_container hmatched htruthful hapart hbuffer hspan hdest.empty hrun
  rw [hsource.bytes] at hbytes
  exact ⟨scratch', after, hrun, hbytes⟩

/-- A patched container of four bytes, from a source that hands over two bytes at a time and through
a buffer of three. -/
theorem apply_makes_container_patched :
    ∃ scratch' after, (World.plain 1).run (.ready (.ofBytes [9, 9, 9]))
        (apply ⟨.patched, ⟨.pak3, "", some 4, none, none, some ⟨2, [5, 6]⟩⟩, 4, rfl⟩
          ⟨false, "source", true, true⟩ ⟨true, "dest", true, true⟩)
        (fun isDest => if isDest then .empty else ⟨.ofBytes [1, 2, 3], 0⟩)
      = ((.ok ⟨.pak3, 3, 4, 1⟩, scratch'), after) ∧ (after true).contents.bytes = [1, 2, 5, 6] := by
  have hspec : Spec.WellFormed ⟨.pak3, "", some 4, none, none, some ⟨2, [5, 6]⟩⟩ := by
    refine Spec.wellFormed_of_conflict (by decide) fun patch hpatch => ?_
    obtain rfl := Option.some.inj hpatch
    exact List.cons_ne_nil _ _
  exact apply_makes_container.2.2.2.2 (World.plain 1) (fun _ => ⟨true, true, true, none⟩)
    ⟨.patched, _, 4, rfl⟩ ⟨false, "source", true, true⟩ ⟨true, "dest", true, true⟩
    (.ready (.ofBytes [9, 9, 9])) (.ofBytes [9, 9, 9]) [1, 2, 3]
    (fun isDest => if isDest then .empty else ⟨.ofBytes [1, 2, 3], 0⟩)
    ⟨hspec, rfl, rfl⟩ (by decide) (World.plain_isTruthful 1) (World.plain_isObliging 1) (by decide)
    ⟨rfl, rfl, by simp [Ability.reaches], rfl, rfl⟩
    ⟨rfl, rfl, ⟨rfl, by simp [Ability.reaches]⟩, rfl⟩ rfl (by decide)

/-- **No report without a container.** Under the rules that come with the tool, whatever truthful
streams do, a run that ends with a report has copied the whole image, from the start of the source,
into a container that is complete, and no call has failed on the way. -/
theorem apply_reports_complete [Machine] {rule : Rule} (hshipped : rule.IsShipped)
    {world : World ι σ}
    (htruthful : world.IsTruthful) {source dest : Channel ι} (hapart : source.handle ≠ dest.handle)
    {scratch scratch' : Scratch} {buffer : Buffer} (hbuffer : scratch.buffer = .ok buffer)
    (hspan : 0 < buffer.length) {state after : σ} {summary : Summary} {calls : List (Exchange ι)}
    (hempty : world.tape state dest.handle = .empty)
    (hrun : world.logged.run scratch (rule.apply source dest) (state, [])
      = ((.ok summary, scratch'), (after, calls))) :
    let image := (world.tape state source.handle).contents.bytes
    image.length ≤ rule.ceiling ∧
      (world.tape after dest.handle).contents.bytes = rule.spec.container rule.targetSize image ∧
      (world.tape after dest.handle).contents.size = rule.containerSize ∧
      summary.sourceSize = image.length ∧
      (image ≠ [] → (world.tape state source.handle).position = 0) ∧
      ∀ call ∈ calls, ¬ call.Failed := by
  intro image
  have hmatched := hshipped.matched
  have hlogged : world.logged.IsTruthful := fun request state => htruthful request state.1
  have hnone (calls : List (Exchange ι)) (hfine : NoneFailed calls) : NoneFailed calls.tail :=
    fun call hcall => hfine call (List.mem_of_mem_tail hcall)
  have hcalls := (rule.apply_stops hnone source dest).run_logged world hrun
  have hclear : world.logged.tape (state, []) dest.handle = .empty := hempty
  obtain ⟨hreport, hfits, hstart, hbytes⟩ :=
    reported_container hmatched hlogged hapart hbuffer hspan hclear hrun
  refine ⟨hfits, hbytes, ?_, ?_, hstart, hcalls.2 rfl⟩
  · refine (Contents.length_bytes _).symm.trans ((congrArg List.length hbytes).trans ?_)
    exact Spec.length_container _ _ _ hmatched.wellFormed rule.targetSize_eq
      (Nat.le_trans hfits hmatched.ceiling_le)
  · rw [hreport]
    rfl

/-- Plain padding of two bytes to four, from a source that hands over one byte at a time. -/
theorem apply_reports_complete_pad :
    ∃ ended, (World.plain 0).logged.run (.ready (.ofBytes [9, 9, 9]))
        (apply ⟨.padded, { Table.pad with targetSize := some 4 }, 4, rfl⟩
          ⟨false, "source", true, true⟩ ⟨true, "dest", false, false⟩)
        (fun isDest => if isDest then .empty else ⟨.ofBytes [1, 2], 0⟩, []) = ended ∧
      ended.1.1 = .ok ⟨.pad, 2, 4, 2⟩ ∧ (ended.2.1 true).contents.bytes = [1, 2, 0, 0] ∧
      ∀ call ∈ ended.2.2, ¬ call.Failed := by
  have hshipped : IsShipped ⟨.padded, { Table.pad with targetSize := some 4 }, 4, rfl⟩ :=
    .pad (rfl : Rule.pad (.integer 4) = _)
  have hreport : ((World.plain 0).logged.run (.ready (.ofBytes [9, 9, 9]))
      (apply ⟨.padded, { Table.pad with targetSize := some 4 }, 4, rfl⟩
        ⟨false, "source", true, true⟩ ⟨true, "dest", false, false⟩)
      (fun isDest => if isDest then .empty else ⟨.ofBytes [1, 2], 0⟩, [])).1.1.toOption
        = some ⟨.pad, 2, 4, 2⟩ := by decide +kernel
  revert hreport
  generalize hrun : World.run _ _ _ _ = ended
  intro hreport
  obtain ⟨⟨outcome, scratch'⟩, after, calls⟩ := ended
  cases outcome with
  | error failure => exact absurd hreport (by simp [Except.toOption])
  | ok summary =>
      obtain rfl : summary = ⟨.pad, 2, 4, 2⟩ := Option.some.inj hreport
      obtain ⟨-, hbytes, -, -, -, hcalls⟩ := apply_reports_complete hshipped
        (World.plain_isTruthful 0) (by decide) rfl (by decide) rfl hrun
      exact ⟨_, rfl, rfl, hbytes, hcalls⟩

end Rule

end RomImage
