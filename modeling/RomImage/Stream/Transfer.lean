import RomImage.Stream.Basic

/-!
# Transfers

Every container is made of three moves: copy so many bytes of the image, write so many copies of one
byte, and find out how large the image is.  Transfers go through the scratch buffer chunk by chunk,
so that memory does not grow with the image.

A transfer of no bytes makes no request.  A read that delivers nothing too early is a short read,
and a write that takes less than it is offered is a short write; neither is ever taken for an end.
Positions are not restored after a failure.  `measure` leaves the position where it was.
-/

namespace RomImage

namespace Stream

variable [Machine]

variable {ι : Type}

def readFailure (source : Channel ι) (fault : Fault) : Failure :=
  if fault.isSystem then .build (.shortRead source.name fault.reason) else .fault fault

def writeFailure (dest : Channel ι) (fault : Fault) : Failure :=
  if fault.isSystem then .build (.shortWrite dest.name fault.reason) else .fault fault

def seekFailure (stream : Channel ι) (fault : Fault) : Failure :=
  if fault.isSystemOrValue then .build (.seekFailure stream.name fault.reason) else .fault fault

/--
The failure of a write that took `written` bytes of `offered`.  If that number has more digits than
are written, the message cannot be made, and this is the failure instead.
-/
def shortWrite (dest : Channel ι) (written : Int) (offered : Nat) : Failure :=
  match Text.decimal? written with
  | some digits => .build (.shortWrite dest.name s!"short write ({digits} of {offered} bytes)")
  | none => .misuse .unprintableNumber

def writeAll (dest : Channel ι) (data : Bytes) : Work ι Unit := do
  match ← write dest.handle data with
  | .error fault => .fail (writeFailure dest fault)
  | .ok none => .fail (shortWrite dest 0 data.length)
  | .ok (some written) =>
    if written < data.length then .fail (shortWrite dest written data.length) else return ()

def storeFront (data : Bytes) : Work ι Unit := do
  let buffer ← Task.buffer
  Task.setBuffer (buffer.overwrite data)

/--
Reads a chunk of at most `want` bytes into the front of the scratch buffer and returns the count
that the stream reports.  Bytes that are handed over must fit into the chunk.
-/
def readChunk (source : Channel ι) (want : Nat) : Work ι Int := do
  if source.readsInto then
    match ← readInto source.handle want with
    | .error fault => .fail (readFailure source fault)
    | .ok delivery =>
      storeFront (Bytes.first delivery.stored want)
      return delivery.reported.getD 0
  else
    match ← read source.handle want with
    | .error fault => .fail (readFailure source fault)
    | .ok none => return 0
    | .ok (some data) =>
      if want < data.length then .fail (.misuse .overlongRead)
      else
        storeFront data
        return data.length

def copyChunk (source dest : Channel ι) (want : Nat) : Work ι Int := do
  let got ← readChunk source want
  if got = 0 then .fail (.build (.shortRead source.name "premature end of file."))
  else
    let buffer ← Task.buffer
    writeAll dest (buffer.upTo got)
    return got

/-- How many rounds a transfer may spend that do not bring it nearer to its end. -/
def patience : Nat := Nat.pow 2 40

def copyRounds (source dest : Channel ι) (span : Nat) : Nat → Int → Work ι Unit
  | rounds, remaining =>
    if remaining ≤ 0 then return ()
    else
      match rounds with
      | 0 => .fail (.misuse .noProgress)
      | rounds + 1 => do
        let got ← copyChunk source dest (min span remaining.toNat)
        copyRounds source dest span rounds (remaining - got)

/--
Copies `count` bytes.  A source that delivers what it reports needs at most one round for each byte;
the rounds beyond are for sources that report less than nothing.
-/
def copy (source dest : Channel ι) (count : Int) : Work ι Unit := do
  if count < 0 then .fail (.misuse (.negativeCount count))
  else if count = 0 then return ()
  else
    let buffer ← Task.buffer
    copyRounds source dest buffer.length (count.toNat + patience) count
    note (.copied count source.name dest.name)

def fillRounds (dest : Channel ι) (span : Nat) : Nat → Nat → Work ι Unit
  | rounds, remaining =>
    if remaining = 0 then return ()
    else
      match rounds with
      | 0 => .fail (.misuse .noProgress)
      | rounds + 1 => do
        let buffer ← Task.buffer
        let chunk := buffer.take (min span remaining)
        writeAll dest chunk
        fillRounds dest span rounds (remaining - chunk.length)

/--
Writes `count` copies of a byte.  The front of the scratch buffer is filled once and offered again
and again.  The rounds beyond the count are for a buffer without a byte, which never gets anything
written.
-/
def fill (dest : Channel ι) (value count : Int) : Work ι Unit := do
  if value < 0 ∨ 255 < value then .fail (.misuse (.fillOutOfRange value))
  else if count < 0 then .fail (.misuse (.negativeCount count))
  else if count = 0 then return ()
  else
    let buffer ← Task.buffer
    let byte := UInt8.ofNat value.toNat
    let span := min buffer.length count.toNat
    storeFront (List.replicate span byte)
    fillRounds dest span (count.toNat + patience) count.toNat
    note (.filled count byte dest.name)

def position (stream : Channel ι) : Work ι (Option Int) := do
  Task.ofExcept ((← tell stream.handle).mapError (seekFailure stream))

def move (stream : Channel ι) (offset whence : Int) : Work ι Unit := do
  Task.ofExcept ((← seek stream.handle offset whence).mapError (seekFailure stream))

def moveTo (stream : Channel ι) (offset whence : Int) : Work ι (Option Int) := do
  move stream offset whence
  position stream

def moveBack (stream : Channel ι) (start : Option Int) : Work ι Unit := do
  match start with
  | some start => move stream start fromStart
  | none => Task.ofExcept ((← seekUnknown stream.handle).mapError (seekFailure stream))

/-- The size of a stream, if it gives one: the position at its end.  The position is put back. -/
def measure (stream : Channel ι) : Work ι (Option Int) := do
  let start ← position stream
  move stream 0 fromEnd
  let size ← position stream
  moveBack stream start
  return size

/-- Whether a stream can be moved; one that cannot say so cannot. -/
def canMove (stream : Channel ι) : Work ι Bool := do
  if stream.answersSeekable then
    match ← seekable stream.handle with
    | .ok yes => return yes
    | .error fault => if fault.isSystemOrValue then return false else .fail (.fault fault)
  else return false

end Stream

end RomImage
