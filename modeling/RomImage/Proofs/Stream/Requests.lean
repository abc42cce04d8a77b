import RomImage.Proofs.Requests
import RomImage.Proofs.Stream.Evenly
import RomImage.Rule

/-!
# Which calls transfers and rules make

A copy reads its source and writes its destination, a fill writes, measuring moves, and a rule does
no more than these. So a rule never writes to its source and never reads its destination, whatever
the streams answer (`Rule.apply_asksOnly`), and an image without a byte is never read.

Work that is staged leaves its destination alone until everything is made
(`Rule.layStaged_asksThen`).
-/

namespace RomImage

namespace Stream

variable {ι : Type} {kind : Request ι → Prop}

def Request.stream? : Request ι → Option ι
  | readInto stream _ | read stream _ | write stream _ | seek stream _ _ | seekUnknown stream
  | tell stream | seekable stream => some stream
  | note _ => none

def Request.refused (fault : Fault) : (request : Request ι) → request.Answer
  | readInto _ _ => (.error fault : Except Fault Delivery)
  | read _ _ => (.error fault : Except Fault (Option Bytes))
  | write _ _ => (.error fault : Except Fault (Option Int))
  | seek _ _ _ => (.error fault : Except Fault Unit)
  | seekUnknown _ => (.error fault : Except Fault Unit)
  | tell _ => (.error fault : Except Fault (Option Int))
  | seekable _ => (.error fault : Except Fault Bool)
  | note _ => (.error fault : Except Fault Unit)

def Request.WritesTo (stream : ι) (request : Request ι) : Prop :=
  ∃ data, request = .write stream data

structure Reads (kind : Request ι → Prop) (stream : ι) : Prop where
  into : ∀ size, kind (.readInto stream size)
  plain : ∀ size, kind (.read stream size)

structure Moves (kind : Request ι → Prop) (stream : ι) : Prop where
  tell : kind (.tell stream)
  seek : ∀ offset whence, kind (.seek stream offset whence)
  seekUnknown : kind (.seekUnknown stream)

def Writes (kind : Request ι → Prop) (stream : ι) : Prop := ∀ data, kind (.write stream data)

/-- Notes of transfers and layouts, which are all of the lowest level, are of the kind. Only a rule
itself notes that it starts. -/
def Notes (kind : Request ι → Prop) : Prop :=
  ∀ fact : Note, fact.level = .debug → fact.origin ≠ .rule → kind (.note fact)

theorem note_asksOnly {fact : Note} (hnote : kind (.note fact)) :
    (note fact : Work ι Unit).AsksOnly kind :=
  .bind (.request hnote) fun _ => .ofExcept _

theorem writeAll_asksOnly {dest : Channel ι} (hwrite : Writes kind dest.handle) (data : Bytes) :
    (writeAll dest data).AsksOnly kind := by
  refine .bind (.request (hwrite data)) fun answer => ?_
  obtain fault | _ | written := answer
  · exact .fail _
  · exact .fail _
  · dsimp only
    split
    · exact .fail _
    · exact .pure ()

theorem storeFront_asksOnly [Machine] (data : Bytes) :
    (storeFront data : Work ι Unit).AsksOnly kind :=
  .bind .buffer fun _ => .setBuffer _

theorem readChunk_asksOnly [Machine] {source : Channel ι} (hread : Reads kind source.handle)
    (want : Nat) :
    (readChunk source want).AsksOnly kind := by
  rw [readChunk]
  split
  · refine .bind (.request (hread.into want)) fun answer => ?_
    cases answer with
    | error fault => exact .fail _
    | ok delivery => exact .bind (storeFront_asksOnly _) fun _ => .pure _
  · refine .bind (.request (hread.plain want)) fun answer => ?_
    obtain fault | _ | data := answer
    · exact .fail _
    · exact .pure 0
    · dsimp only
      split
      · exact .fail _
      · exact .bind (storeFront_asksOnly _) fun _ => .pure _

theorem copyChunk_asksOnly [Machine] {source dest : Channel ι} (hread : Reads kind source.handle)
    (hwrite : Writes kind dest.handle) (want : Nat) :
    (copyChunk source dest want).AsksOnly kind := by
  refine .bind (readChunk_asksOnly hread want) fun got => ?_
  split
  · exact .fail _
  · exact .bind .buffer fun _ => .bind (writeAll_asksOnly hwrite _) fun _ => .pure got

theorem copyRounds_asksOnly [Machine] {source dest : Channel ι} (hread : Reads kind source.handle)
    (hwrite : Writes kind dest.handle) (span rounds : Nat) (remaining : Int) :
    (copyRounds source dest span rounds remaining).AsksOnly kind := by
  induction rounds generalizing remaining with
  | zero =>
      rw [copyRounds]
      split
      · exact .pure ()
      · exact .fail _
  | succ rounds ih =>
      rw [copyRounds]
      split
      · exact .pure ()
      · exact .bind (copyChunk_asksOnly hread hwrite _) fun got => ih _

/-- A copy of no bytes does not read. -/
theorem copy_asksOnly [Machine] {source dest : Channel ι} {count : Int}
    (hread : count ≠ 0 → Reads kind source.handle) (hwrite : Writes kind dest.handle)
    (hnote : Notes kind) : (copy source dest count).AsksOnly kind := by
  rw [copy]
  split
  · exact .fail _
  split
  · exact .pure ()
  · rename_i hcount
    refine .bind .buffer fun buffer => ?_
    refine .bind (copyRounds_asksOnly (hread hcount) hwrite _ _ _) fun _ => ?_
    exact note_asksOnly (hnote _ rfl nofun)

theorem writeTimes_asksOnly {dest : Channel ι} (hwrite : Writes kind dest.handle) (chunk : Bytes)
    (times : Nat) : (writeTimes dest chunk times).AsksOnly kind := by
  induction times with
  | zero => exact .pure ()
  | succ times ih => exact .bind (writeAll_asksOnly hwrite chunk) fun _ => ih

theorem fill_asksOnly [Machine] {dest : Channel ι} (hwrite : Writes kind dest.handle)
    (hnote : Notes kind)
    (value count : Int) : (fill dest value count).AsksOnly kind := by
  rw [fill_eq_fillEvenly, fillEvenly]
  split
  · exact .fail _
  split
  · exact .fail _
  split
  · exact .pure ()
  refine .bind .buffer fun buffer => ?_
  dsimp only
  split
  · exact .bind (writeTimes_asksOnly hwrite _ _) fun _ => .fail _
  · refine .bind (storeFront_asksOnly _) fun _ => .bind (writeTimes_asksOnly hwrite _ _) fun _ => ?_
    split
    · exact .bind (writeAll_asksOnly hwrite _) fun _ =>
        note_asksOnly (hnote _ rfl (by simp [Note.origin]))
    · exact note_asksOnly (hnote _ rfl (by simp [Note.origin]))

theorem position_asksOnly {stream : Channel ι} (hmove : Moves kind stream.handle) :
    (position stream).AsksOnly kind :=
  .bind (.request hmove.tell) fun _ => .ofExcept _

theorem move_asksOnly {stream : Channel ι} (hmove : Moves kind stream.handle)
    (offset whence : Int) : (move stream offset whence).AsksOnly kind :=
  .bind (.request (hmove.seek offset whence)) fun _ => .ofExcept _

theorem moveTo_asksOnly {stream : Channel ι} (hmove : Moves kind stream.handle)
    (offset whence : Int) : (moveTo stream offset whence).AsksOnly kind :=
  .bind (move_asksOnly hmove offset whence) fun _ => position_asksOnly hmove

theorem moveBack_asksOnly {stream : Channel ι} (hmove : Moves kind stream.handle)
    (start : Option Int) : (moveBack stream start).AsksOnly kind := by
  cases start with
  | some start => exact move_asksOnly hmove start fromStart
  | none => exact .bind (.request hmove.seekUnknown) fun _ => .ofExcept _

theorem measure_asksOnly {stream : Channel ι} (hmove : Moves kind stream.handle) :
    (measure stream).AsksOnly kind := by
  refine .bind (position_asksOnly hmove) fun start => .bind (move_asksOnly hmove 0 fromEnd) ?_
  intro _
  refine .bind (position_asksOnly hmove) fun size => .bind (moveBack_asksOnly hmove start) ?_
  intro _
  exact .pure size

theorem canMove_asksOnly {stream : Channel ι} (hask : kind (.seekable stream.handle)) :
    (canMove stream).AsksOnly kind := by
  rw [canMove]
  split
  · refine .bind (.request hask) fun answer => ?_
    cases answer with
    | ok yes => exact .pure yes
    | error fault =>
        dsimp only
        split
        · exact .pure false
        · exact .fail _
  · exact .pure false

def besideKind (kind : Request ι → Prop) : Request (Option ι) → Prop
  | .readInto none _ | .read none _ | .write none _ | .seek none _ _ | .seekUnknown none
  | .tell none | .seekable none => True
  | .readInto (some stream) size => kind (.readInto stream size)
  | .read (some stream) size => kind (.read stream size)
  | .write (some stream) data => kind (.write stream data)
  | .seek (some stream) offset whence => kind (.seek stream offset whence)
  | .seekUnknown (some stream) => kind (.seekUnknown stream)
  | .tell (some stream) => kind (.tell stream)
  | .seekable (some stream) => kind (.seekable stream)
  | .note fact => kind (.note fact)

theorem steer_within [Machine] (request : Request (Option ι)) (memory : Tape)
    (hkind : besideKind kind request) : (steer request memory).Within kind := by
  cases request with
  | write stream data =>
      cases stream with
      | none =>
          rw [steer]
          split
          · trivial
          · trivial
      | some stream => exact hkind
  | seek stream offset whence =>
      cases stream with
      | none =>
          obtain ⟨contents, position⟩ := memory
          rw [steer]
          split
          · trivial
          · trivial
      | some stream => exact hkind
  | note fact => exact hkind
  | readInto stream size | read stream size | seekUnknown stream | tell stream | seekable stream =>
      cases stream with
      | none => trivial
      | some stream => exact hkind

theorem staged_asksThen [Machine] {α : Type} {first second : Request ι → Prop}
    {work : Work (Option ι) α}
    (hwork : work.AsksThen (besideKind first) (besideKind second)) :
    (staged work).AsksThen first second :=
  Task.AsksThen.route steer_within steer_within hwork .empty

theorem Reads.beside {stream : ι} (hread : Reads kind stream) :
    Reads (besideKind kind) (some stream) :=
  ⟨hread.into, hread.plain⟩

theorem moves_beside : Moves (besideKind kind) none :=
  ⟨trivial, fun _ _ => trivial, trivial⟩

end Stream

open RomImage.Stream

namespace Rule

variable {ι : Type} {kind : Request ι → Prop} {source dest : Channel ι} {size : Int}

theorem layImage_asksOnly [Machine] (rule : Rule) (hread : size ≠ 0 → Reads kind source.handle)
    (hwrite : Writes kind dest.handle) (hnote : Notes kind) :
    (rule.layImage source dest size).AsksOnly kind :=
  .bind (copy_asksOnly hread hwrite hnote) fun _ => fill_asksOnly hwrite hnote _ _

theorem layPatch_asksOnly (rule : Rule) (hmove : Moves kind dest.handle)
    (hwrite : Writes kind dest.handle) (hnote : Notes kind) :
    (rule.layPatch dest).AsksOnly kind := by
  rw [layPatch]
  split
  · exact .fail _
  · refine .bind (moveTo_asksOnly hmove _ _) fun _ => .bind (writeAll_asksOnly hwrite _) ?_
    intro _
    exact .bind (moveTo_asksOnly hmove _ _) fun _ => note_asksOnly (hnote _ rfl nofun)

/-- The calls of making a container in memory come before those of giving it away. -/
theorem layStaged_asksThen [Machine] (rule : Rule) {first second : Request ι → Prop}
    (hread : size ≠ 0 → Reads first source.handle) (hnote : Notes first)
    (hwrite : Writes second dest.handle) (hnote' : Notes second) :
    (staged do
      rule.layImage (source.mapHandle some) stagingChannel size
      rule.layPatch stagingChannel
      move stagingChannel 0 fromStart
      copy stagingChannel (dest.mapHandle some) rule.containerSize : Work ι Unit).AsksThen
        first second := by
  refine staged_asksThen (.bind (rule.layImage_asksOnly ?_ (fun _ => trivial) hnote) ?_)
  · intro hsize
    exact (hread hsize).beside
  intro _
  refine .bind (rule.layPatch_asksOnly moves_beside (fun _ => trivial) hnote) ?_
  intro _
  refine .bind (move_asksOnly moves_beside 0 fromStart) ?_
  intro _
  have hmemory : Reads (besideKind second) none := ⟨fun _ => trivial, fun _ => trivial⟩
  exact .of_asksOnly (copy_asksOnly (fun _ => hmemory) hwrite hnote')

/-- A layout reads the source, unless the image is empty, and does the rest to the destination. It
asks whether that can be moved only if there is a patch. -/
theorem lay_asksOnly [Machine] (rule : Rule) (hread : size ≠ 0 → Reads kind source.handle)
    (hwrite : Writes kind dest.handle) (hmove : Moves kind dest.handle)
    (hask : rule.layout = .patched → kind (.seekable dest.handle)) (hnote : Notes kind) :
    (rule.lay source dest size).AsksOnly kind := by
  rw [lay]
  cases hlayout : rule.layout with
  | padded => exact rule.layImage_asksOnly hread hwrite hnote
  | led =>
      dsimp only
      split
      · exact .fail _
      · refine .bind (fill_asksOnly hwrite hnote _ _) fun _ => ?_
        exact rule.layImage_asksOnly hread hwrite hnote
  | patched =>
      refine .bind (canMove_asksOnly (hask hlayout)) fun moves => ?_
      split
      · refine .bind (rule.layImage_asksOnly hread hwrite hnote) fun _ => ?_
        exact rule.layPatch_asksOnly hmove hwrite hnote
      · refine .bind (note_asksOnly (hnote _ rfl nofun)) fun _ => ?_
        exact (rule.layStaged_asksThen hread hnote hwrite hnote).asksOnly

/-- A rule measures and reads its source, and does the rest to its destination. -/
theorem apply_asksOnly [Machine] (rule : Rule) (hread : Reads kind source.handle)
    (hmeasure : Moves kind source.handle) (hwrite : Writes kind dest.handle)
    (hmove : Moves kind dest.handle) (hask : rule.layout = .patched → kind (.seekable dest.handle))
    (hnote : ∀ fact : Note, fact.level = .debug → kind (.note fact)) :
    (rule.apply source dest).AsksOnly kind := by
  refine .bind .buffer fun _ => .bind (measure_asksOnly hmeasure) fun size => ?_
  split
  · exact .fail _
  split
  · exact .fail _
  · refine .bind (note_asksOnly (hnote _ rfl)) fun _ => ?_
    refine .bind (rule.lay_asksOnly (fun _ => hread) hwrite hmove hask ?_) fun _ => .pure _
    exact fun fact hlevel _ => hnote fact hlevel

/-- A rule calls its source and its destination only. -/
theorem apply_asksOnly_streams [Machine] (rule : Rule)
    (hkind : ∀ request : Request ι,
      (∀ stream ∈ request.stream?, stream = source.handle ∨ stream = dest.handle) → kind request) :
    (rule.apply source dest).AsksOnly kind := by
  have hsource {request : Request ι} (hto : request.stream? = some source.handle) : kind request :=
    hkind request fun stream hstream => .inl (Option.some.inj (hstream.symm.trans hto))
  have hdest {request : Request ι} (hto : request.stream? = some dest.handle) : kind request :=
    hkind request fun stream hstream => .inr (Option.some.inj (hstream.symm.trans hto))
  exact rule.apply_asksOnly ⟨fun _ => hsource rfl, fun _ => hsource rfl⟩
    ⟨hsource rfl, fun _ _ => hsource rfl, hsource rfl⟩ (fun _ => hdest rfl)
    ⟨hdest rfl, fun _ _ => hdest rfl, hdest rfl⟩ (fun _ => hdest rfl)
    fun fact _ => hkind _ fun stream hstream => absurd hstream (by simp [Request.stream?])

end Rule

end RomImage
