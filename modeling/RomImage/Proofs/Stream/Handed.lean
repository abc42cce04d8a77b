import RomImage.Proofs.Stream.Granted
import RomImage.Proofs.Stream.Writes

/-!
# How much a copy hands over

A copy goes by what its reads report. A read that hands over bytes can be checked, and one with more
bytes than were asked for ends the copy. A read into a chunk is not checked: whatever it reports is
taken for the length of the chunk and off what remains, while the chunk itself ends where the buffer
does. So the two sums, of the reports and of the chunks, go apart where a report lies outside what
was asked for, and the copy hands over too much or ends too early. Where every report stays within,
they are one (`CopyTally`).
-/

namespace RomImage

namespace Stream

variable {ι σ α : Type}

/-- The size of the chunk that a report makes of a buffer with `span` bytes: it is cut where the
buffer ends, and a report below zero counts back from there. -/
def portion (span : Nat) (report : Int) : Nat :=
  if report < 0 then span - report.natAbs else min report.toNat span

/-- What the answer to a read reports. Reads that fail report nothing, nor do those that hand over
more than was asked for, and no other call reports anything. -/
def Request.report : (request : Request ι) → request.Answer → Int
  | .readInto _ _, .ok delivery => delivery.reported.getD 0
  | .read _ size, .ok (some data) => if size < data.length then 0 else data.length
  | _, _ => 0

def reportedIn : List (Exchange ι) → Int
  | [] => 0
  | call :: calls => call.1.report call.2 + reportedIn calls

def portionsIn (span : Nat) : List (Exchange ι) → Nat
  | [] => 0
  | call :: calls => portion span (call.1.report call.2) + portionsIn span calls

def Channel.ReadsUpTo (source : Channel ι) (want : Nat) (request : Request ι) : Prop :=
  source.readsInto = true ∧ request = .readInto source.handle want ∨
    request = .read source.handle want

theorem length_upTo (buffer : Buffer) (report : Int) :
    (buffer.upTo report).length = portion buffer.length report := by
  rw [Buffer.upTo_eq, Bytes.upTo, portion, Buffer.length_bytes]
  split
  · rw [List.length_take, Buffer.length_bytes]
    omega
  · rw [List.length_take, Buffer.length_bytes]

/-- A report within the buffer is the size of the chunk. -/
theorem portion_of_le {span : Nat} {report : Int} (hleast : 0 ≤ report) (hmost : report ≤ span) :
    (portion span report : Int) = report := by
  rw [portion, if_neg (by omega)]
  omega

theorem portion_zero (span : Nat) : portion span 0 = 0 := by
  rw [portion, if_neg (by omega)]
  exact Nat.zero_min span

/-- Only a read into a chunk can report more than was asked for, or less than nothing. -/
theorem Channel.ReadsUpTo.report_le {source : Channel ι} {want : Nat} {request : Request ι}
    {answer : request.Answer} (hreads : source.ReadsUpTo want request)
    (hwithin : source.readsInto = true → Within request answer) :
    0 ≤ request.report answer ∧ request.report answer ≤ want := by
  obtain ⟨hinto, rfl⟩ | rfl := hreads
  · obtain fault | ⟨stored, _ | reported⟩ := answer
    · exact ⟨Int.le_refl 0, Int.natCast_nonneg want⟩
    · exact ⟨Int.le_refl 0, Int.natCast_nonneg want⟩
    · exact hwithin hinto reported rfl
  · obtain fault | _ | data := answer
    · exact ⟨Int.le_refl 0, Int.natCast_nonneg want⟩
    · exact ⟨Int.le_refl 0, Int.natCast_nonneg want⟩
    · rw [Request.report]
      split <;> omega

variable [DecidableEq ι]

theorem Channel.ReadsUpTo.dataTo {source : Channel ι} {want : Nat} {request : Request ι}
    (hreads : source.ReadsUpTo want request) (stream : ι) : request.dataTo stream = [] := by
  obtain ⟨-, rfl⟩ | rfl := hreads
  · rfl
  · rfl

def TakenWhole (dest : ι) : (request : Request ι) → request.Answer → Prop
  | .write stream data, answer => stream = dest → answer = .ok (some (data.length : Int))
  | _, _ => True

def takingWhole (dest : ι) : Conduct (interface ι) (List (Exchange ι)) :=
  fun request calls answer after => after = ⟨request, answer⟩ :: calls ∧
    TakenWhole dest request answer

/-- The calls of a copy of `count` bytes of which so many remain. What was handed over are the
chunks that the reports make; it is what was reported if the source, where it reads into chunks,
never reports more than was asked for, or less than nothing. -/
structure CopyTally (source dest : Channel ι) (span : Nat) (count : Int) (calls : List (Exchange ι))
    (remaining : Int) : Prop where
  handed : (offeredTo dest.handle calls).length = portionsIn span calls
  remaining_eq : remaining = count - reportedIn calls
  within : (source.readsInto = true → ∀ call ∈ calls, Within call.1 call.2) →
    0 ≤ remaining ∧ (portionsIn span calls : Int) = reportedIn calls

section CopyTally

variable {source dest : Channel ι} {span want : Nat} {count remaining : Int}
  {calls : List (Exchange ι)}

theorem CopyTally.start (source dest : Channel ι) (span : Nat) (hcount : 0 ≤ count) :
    CopyTally source dest span count [] count :=
  ⟨rfl, (Int.sub_zero count).symm, fun _ => ⟨hcount, rfl⟩⟩

/-- A call that reports nothing and hands over nothing leaves the tally as it is. -/
theorem CopyTally.idle (htally : CopyTally source dest span count calls remaining)
    {call : Exchange ι} (hreport : call.1.report call.2 = 0)
    (hdata : call.1.dataTo dest.handle = []) :
    CopyTally source dest span count (call :: calls) remaining := by
  have hreported : reportedIn (call :: calls) = reportedIn calls := by
    rw [reportedIn, hreport, Int.zero_add]
  have hportions : portionsIn span (call :: calls) = portionsIn span calls := by
    rw [portionsIn, hreport, portion_zero, Nat.zero_add]
  refine ⟨?_, ?_, fun hwithin => ?_⟩
  · rw [offeredTo_cons, hdata, List.append_nil, hportions]
    exact htally.handed
  · rw [hreported]
    exact htally.remaining_eq
  · rw [hportions, hreported]
    exact htally.within fun hinto => (List.forall_mem_cons.mp (hwithin hinto)).2

theorem CopyTally.note (htally : CopyTally source dest span count calls remaining) (fact : Note)
    (answer : Except Fault Unit) :
    CopyTally source dest span count (⟨.note fact, answer⟩ :: calls) remaining :=
  htally.idle rfl rfl

/-- A chunk is read and handed over as it was reported. -/
theorem CopyTally.chunk (htally : CopyTally source dest span count calls remaining)
    {call : Exchange ι} (hreads : source.ReadsUpTo want call.1) (hspan : want ≤ span)
    (hremaining : want ≤ remaining) {data : Bytes}
    (hdata : data.length = portion span (call.1.report call.2))
    (answer : Except Fault (Option Int)) :
    CopyTally source dest span count (⟨.write dest.handle data, answer⟩ :: call :: calls)
      (remaining - call.1.report call.2) := by
  have hnothing : (Request.write dest.handle data).report answer = 0 := rfl
  have hoffered : (Request.write dest.handle data).dataTo dest.handle = data := if_pos rfl
  have hreported : reportedIn (⟨.write dest.handle data, answer⟩ :: call :: calls)
      = call.1.report call.2 + reportedIn calls := by
    rw [reportedIn, reportedIn, hnothing, Int.zero_add]
  have hportions : portionsIn span (⟨.write dest.handle data, answer⟩ :: call :: calls)
      = data.length + portionsIn span calls := by
    rw [portionsIn, portionsIn, hnothing, portion_zero, Nat.zero_add, hdata]
  refine ⟨?_, ?_, fun hwithin => ?_⟩
  · rw [offeredTo_cons, offeredTo_cons, hreads.dataTo, List.append_nil, hoffered,
      List.length_append, htally.handed, hportions, Nat.add_comm]
  · rw [hreported, htally.remaining_eq]
    omega
  · simp only [List.forall_mem_cons] at hwithin
    obtain ⟨hleast, hmost⟩ := hreads.report_le fun hinto => (hwithin hinto).2.1
    obtain ⟨-, hsame⟩ := htally.within fun hinto => (hwithin hinto).2.2
    have hchunk : (portion span (call.1.report call.2) : Int) = call.1.report call.2 :=
      portion_of_le hleast (by omega)
    rw [hportions, hreported, hdata]
    omega

end CopyTally

section Copy

variable {source dest : Channel ι} {span : Nat} {count : Int} {scratch : Scratch}
  {calls : List (Exchange ι)}

omit [DecidableEq ι] in
theorem writeAll_taken (data : Bytes) :
    (writeAll dest data).Ensures (takingWhole dest.handle) scratch calls
      (fun _ scratch' after => scratch' = scratch ∧
        after = ⟨.write dest.handle data, .ok (some (data.length : Int))⟩ :: calls)
      (fun _ _ _ => False) := by
  refine Task.Ensures.bind (Task.ensures_request _) ?_
  rintro answer scratch' _ ⟨rfl, rfl, htaken⟩
  obtain rfl : answer = .ok (some (data.length : Int)) := htaken rfl
  dsimp only
  rw [if_neg (Int.lt_irrefl _)]
  exact Task.ensures_pure ⟨rfl, rfl⟩

omit [DecidableEq ι] in
/-- A chunk is read as far as the answer reports, or the read stands for nothing. -/
theorem readChunk_reports [Machine] {want : Nat} (hfits : want ≤ span)
    (hscratch : HasBuffer span scratch) :
    (readChunk source want).Ensures (takingWhole dest.handle) scratch calls
      (fun got scratch' after => HasBuffer span scratch' ∧ ∃ call : Exchange ι,
        source.ReadsUpTo want call.1 ∧ call.1.report call.2 = got ∧ after = call :: calls)
      (fun _ _ after => ∃ call : Exchange ι,
        source.ReadsUpTo want call.1 ∧ call.1.report call.2 = 0 ∧ after = call :: calls) := by
  obtain ⟨buffer, rfl, rfl⟩ := hscratch
  rw [readChunk]
  split
  · rename_i hinto
    refine Task.Ensures.bind (Task.ensures_request _) ?_
    rintro answer _ _ ⟨rfl, rfl, -⟩
    have hreads : source.ReadsUpTo want (.readInto source.handle want) := .inl ⟨hinto, rfl⟩
    cases answer with
    | error fault => exact Task.ensures_fail ⟨_, hreads, rfl, rfl⟩
    | ok delivery =>
        have hlength : (Bytes.first delivery.stored want).length ≤ buffer.length := by
          rw [Bytes.first_eq, List.length_take]
          omega
        refine Task.Ensures.bind (storeFront_ensures _ hlength) ?_
        rintro _ _ _ ⟨rfl, filled, rfl, hfilled, -⟩
        exact Task.ensures_pure ⟨⟨filled, rfl, hfilled⟩, _, hreads, rfl, rfl⟩
  · refine Task.Ensures.bind (Task.ensures_request _) ?_
    rintro answer _ _ ⟨rfl, rfl, -⟩
    have hreads : source.ReadsUpTo want (.read source.handle want) := .inr rfl
    obtain fault | _ | data := answer
    · exact Task.ensures_fail ⟨_, hreads, rfl, rfl⟩
    · exact Task.ensures_pure ⟨⟨buffer, rfl, rfl⟩, _, hreads, rfl, rfl⟩
    · have hreport : (Request.read source.handle want).report (.ok (some data))
          = if want < data.length then 0 else (data.length : Int) := rfl
      dsimp only
      split
      · rename_i hlong
        exact Task.ensures_fail ⟨_, hreads, by rw [hreport, if_pos hlong], rfl⟩
      · rename_i hshort
        refine Task.Ensures.bind (storeFront_ensures _ (by omega)) ?_
        rintro _ _ _ ⟨rfl, filled, rfl, hfilled, -⟩
        exact Task.ensures_pure ⟨⟨filled, rfl, hfilled⟩, _, hreads, by rw [hreport, if_neg hshort],
          rfl⟩

/-- One round takes off what remains as much as was reported. -/
theorem copyChunk_tallies [Machine] {want : Nat} {remaining : Int} (hfits : want ≤ span)
    (hremaining : want ≤ remaining) (hscratch : HasBuffer span scratch)
    (htally : CopyTally source dest span count calls remaining) :
    (copyChunk source dest want).Ensures (takingWhole dest.handle) scratch calls
      (fun got scratch' after => HasBuffer span scratch' ∧
        CopyTally source dest span count after (remaining - got))
      (fun _ _ after => CopyTally source dest span count after remaining) := by
  rw [copyChunk]
  refine Task.Ensures.bind ((readChunk_reports hfits hscratch).bad_mono ?_) ?_
  · rintro _ _ _ ⟨call, hreads, hreport, rfl⟩
    exact htally.idle hreport (hreads.dataTo _)
  rintro got _ _ ⟨⟨buffer, rfl, rfl⟩, call, hreads, rfl, rfl⟩
  by_cases hnothing : call.1.report call.2 = 0
  · rw [if_pos hnothing]
    exact Task.ensures_fail (htally.idle hnothing (hreads.dataTo _))
  rw [if_neg hnothing]
  refine Task.Ensures.bind (Task.ensures_buffer rfl) ?_
  rintro _ _ _ ⟨rfl, rfl, rfl⟩
  refine Task.Ensures.bind ((writeAll_taken _).bad_mono fun _ _ _ => False.elim) ?_
  rintro _ _ _ ⟨rfl, rfl⟩
  exact Task.ensures_pure ⟨⟨_, rfl, rfl⟩,
    htally.chunk hreads hfits hremaining (length_upTo _ _) _⟩

theorem copyRounds_tallies [Machine] (rounds : Nat) {remaining : Int}
    (hscratch : HasBuffer span scratch)
    (htally : CopyTally source dest span count calls remaining) :
    (copyRounds source dest span rounds remaining).Ensures (takingWhole dest.handle) scratch calls
      (fun _ _ after => ∃ left ≤ 0, CopyTally source dest span count after left)
      (fun _ _ after => ∃ left, CopyTally source dest span count after left) := by
  induction rounds generalizing remaining scratch calls with
  | zero =>
      rw [copyRounds]
      split
      · rename_i hdone
        exact Task.ensures_pure ⟨remaining, hdone, htally⟩
      · exact Task.ensures_fail ⟨remaining, htally⟩
  | succ rounds ih =>
      rw [copyRounds]
      split
      · rename_i hdone
        exact Task.ensures_pure ⟨remaining, hdone, htally⟩
      · refine Task.Ensures.bind ((copyChunk_tallies (Nat.min_le_left _ _) (by omega) hscratch
          htally).bad_mono fun _ _ _ htally => ⟨remaining, htally⟩) ?_
        rintro got _ _ ⟨hscratch, htally⟩
        exact ih hscratch htally

/-- A copy that ends well has nothing left to be reported. -/
theorem copy_tallies [Machine] (hcount : 0 < count) {buffer : Buffer}
    (hbuffer : scratch.buffer = .ok buffer) :
    (copy source dest count).Ensures (takingWhole dest.handle) scratch []
      (fun _ _ after => ∃ left ≤ 0, CopyTally source dest buffer.length count after left)
      (fun _ _ after => ∃ left, CopyTally source dest buffer.length count after left) := by
  rw [copy, if_neg (by omega), if_neg (by omega)]
  refine Task.Ensures.bind (Task.ensures_buffer hbuffer) ?_
  rintro buffer _ _ ⟨rfl, rfl, rfl⟩
  refine Task.Ensures.bind (copyRounds_tallies _ ⟨buffer, rfl, rfl⟩
    (.start _ _ _ (Int.le_of_lt hcount))) ?_
  rintro _ _ _ ⟨left, hleft, htally⟩
  refine Task.Ensures.bind (Task.ensures_request _) ?_
  rintro answer _ _ ⟨-, rfl, -⟩
  cases answer with
  | ok _ => exact Task.ensures_pure ⟨left, hleft, htally.note _ _⟩
  | error fault => exact Task.ensures_fail ⟨left, htally.note _ _⟩

def World.TakesWhole (world : World ι σ) (dest : ι) : Prop :=
  ∀ data state, (world.answer (.write dest data) state).1 = .ok (some (data.length : Int))

omit [DecidableEq ι] in
theorem World.TakesWhole.takingWhole {world : World ι σ} (hwhole : world.TakesWhole dest.handle)
    (request : Request ι) (state : σ) (calls : List (Exchange ι)) :
    takingWhole dest.handle request calls (world.answer request state).1
      (⟨request, (world.answer request state).1⟩ :: calls) := by
  refine ⟨rfl, ?_⟩
  cases request with
  | write stream data =>
      rintro rfl
      exact hwhole data state
  | _ => trivial

def World.claiming (reported : Int) : World ι (ι → Tape) where
  tape tapes := tapes
  answer
    | .readInto _ _, tapes => ((.ok ⟨[], some reported⟩ : Except Fault Delivery), tapes)
    | request, tapes => (plain 0).answer request tapes

/-- **A copy hands over what is reported.** To a destination that takes every write whole, whatever
the source answers, a copy hands over the chunks that the reports make of the buffer, and it ends
well only when as much was reported as it should copy. So it hands over no more than that, and just
that when it ends well, from a source that hands over bytes, and from one that reads into chunks as
long as that reports no more than was asked for, and no less than nothing. -/
theorem copy_hands_over_reported [Machine] {world : World ι σ} (source dest : Channel ι)
    (hwhole : world.TakesWhole dest.handle) {scratch : Scratch} {buffer : Buffer}
    (hbuffer : scratch.buffer = .ok buffer) {count : Int} (hcount : 0 < count) (state : σ) :
    let ended := world.logged.run scratch (copy source dest count) (state, [])
    let calls := ended.2.2
    let handed := (offeredTo dest.handle calls).length
    handed = portionsIn buffer.length calls ∧
    (ended.1.1 = .ok () → count ≤ reportedIn calls) ∧
    ((source.readsInto = true → ∀ call ∈ calls, Within call.1 call.2) →
      (handed : Int) ≤ count ∧ (ended.1.1 = .ok () → (handed : Int) = count)) := by
  intro ended calls handed
  obtain ⟨left, hdone, htally⟩ : ∃ left, (ended.1.1 = .ok () → left ≤ 0) ∧
      CopyTally source dest buffer.length count calls left := by
    refine world.run_logged hwhole.takingWhole (fun outcome _ calls => ∃ left,
      (outcome = .ok () → left ≤ 0) ∧ CopyTally source dest buffer.length count calls left)
      ((copy_tallies hcount hbuffer).mono ?_ ?_)
    · rintro _ _ _ ⟨left, hleft, htally⟩
      exact ⟨left, fun _ => hleft, htally⟩
    · rintro _ _ _ ⟨left, htally⟩
      exact ⟨left, fun hok => absurd hok (by simp), htally⟩
  have hleft : left = count - reportedIn calls := htally.remaining_eq
  have hhanded : handed = portionsIn buffer.length calls := htally.handed
  refine ⟨hhanded, fun hok => ?_, fun hwithin => ?_⟩
  · have hnone := hdone hok
    omega
  · obtain ⟨hleast, hsame⟩ := htally.within hwithin
    rw [hhanded, hsame]
    refine ⟨by omega, fun hok => ?_⟩
    have hnone := hdone hok
    omega

/-- A report of eight bytes where three were asked for makes a chunk of eight; one of twenty, where
the buffer has sixteen, makes a chunk of sixteen. -/
theorem copy_hands_over_reported_claiming :
    let source : Channel Bool := ⟨false, "source", true, true⟩
    let dest : Channel Bool := ⟨true, "dest", true, true⟩
    let ended (reported count : Int) := (World.claiming reported).logged.run
      (.ready (.zeros 16)) (copy source dest count) (fun _ => .empty, [])
    let handed (reported count : Int) := (offeredTo dest.handle (ended reported count).2.2).length
    ((ended 8 3).1.1.isOk = true ∧ handed 8 3 = 8 ∧ handed 8 3 = portionsIn 16 (ended 8 3).2.2) ∧
      (ended 20 20).1.1.isOk = true ∧ handed 20 20 = 16 ∧
        handed 20 20 = portionsIn 16 (ended 20 20).2.2 := by
  intro source dest ended handed
  have hwhole (reported : Int) : (World.claiming reported : World Bool _).TakesWhole true :=
    fun _ _ => rfl
  have hbuffer : Scratch.buffer (.ready (.zeros 16)) = .ok (.zeros 16) := rfl
  exact ⟨⟨by decide +kernel, by decide +kernel,
    (copy_hands_over_reported source dest (hwhole 8) hbuffer (by decide) _).1⟩,
    by decide +kernel, by decide +kernel,
    (copy_hands_over_reported source dest (hwhole 20) hbuffer (by decide) _).1⟩

end Copy

end Stream

end RomImage
