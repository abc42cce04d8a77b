import RomImage.Proofs.Recorded
import RomImage.Proofs.Stream.Calls
import RomImage.Proofs.Stream.Orderly

/-!
# Streams no call of which fails

Where no call fails and a read delivers no more than was asked for, streams are orderly and
transfers come to their end. What was noted of an earlier call is still there after a later one,
such as the size that the source has told (`measure_granted`).
-/

namespace RomImage

namespace Stream

variable {ι σ α : Type} {name : ι → String} {inv : List (Exchange ι) → Prop}
  {bad : Failure → List (Exchange ι) → Prop}

def Within : (request : Request ι) → request.Answer → Prop
  | .readInto _ size, .ok delivery => ∀ count ∈ delivery.reported, 0 ≤ count ∧ count ≤ size
  | .read _ size, .ok (some data) => data.length ≤ size
  | _, _ => True

instance decidableWithin :
    (request : Request ι) → (answer : request.Answer) → Decidable (Within request answer)
  | .readInto _ size, .ok delivery =>
    inferInstanceAs (Decidable (∀ count ∈ delivery.reported, 0 ≤ count ∧ count ≤ size))
  | .readInto _ _, .error _ => .isTrue trivial
  | .read _ size, .ok (some data) => inferInstanceAs (Decidable (data.length ≤ size))
  | .read _ _, .ok none | .read _ _, .error _ => .isTrue trivial
  | .write _ _, _ | .seek _ _ _, _ | .seekUnknown _, _ | .tell _, _ | .seekable _, _
  | .note _, _ => .isTrue trivial

def moderate : Conduct (interface ι) (List (Exchange ι)) :=
  fun request calls answer after => after = ⟨request, answer⟩ :: calls ∧ Within request answer

/-- A logged run in which no read delivers more than was asked for ends as the work does where none
ever does. -/
theorem World.run_moderate (world : World ι σ) {work : Work ι α} {scratch : Scratch} {state : σ}
    (ending : Except Failure α → Scratch → List (Exchange ι) → Prop)
    (hwork : work.Ensures moderate scratch [] (fun value => ending (.ok value))
      (fun failure => ending (.error failure)))
    (hwithin : ∀ call ∈ (world.logged.run scratch work (state, [])).2.2, Within call.1 call.2) :
    ending (world.logged.run scratch work (state, [])).1.1
      (world.logged.run scratch work (state, [])).1.2
      (world.logged.run scratch work (state, [])).2.2 := by
  have hlogged : world.logged.run scratch work (state, [])
      = (work scratch).run (recording world.answer) (state, []) := rfl
  rw [hlogged] at hwithin ⊢
  obtain ⟨⟨⟨outcome, scratch'⟩, after, calls⟩, hrun⟩ :
    ∃ ended, (work scratch).run (recording world.answer) (state, []) = ended := ⟨_, rfl⟩
  rw [hrun] at hwithin ⊢
  have hmoderate (request : Request ι) (before : σ) (earlier : List (Exchange ι))
      (hcall : Within request (world.answer request before).1) :
      moderate request earlier (world.answer request before).1
        (⟨request, (world.answer request before).1⟩ :: earlier) := ⟨rfl, hcall⟩
  have hends := hwork.run_recording hmoderate hrun hwithin
  cases outcome with
  | ok value => exact hends
  | error failure => exact hends

/-- A fill reads nothing. -/
theorem fill_within [Machine] (world : World ι σ) (dest : Channel ι) (value count : Int)
    (scratch : Scratch)
    (state : σ) :
    ∀ call ∈ (world.logged.run scratch (fill dest value count) (state, [])).2.2,
      Within call.1 call.2 := by
  have hwrite : Writes (fun request : Request ι => ∀ answer, Within request answer) dest.handle :=
    fun _ _ => trivial
  have hnote : Notes fun request : Request ι => ∀ answer, Within request answer :=
    fun _ _ _ _ => trivial
  have hcalls : world.logged.run scratch (fill dest value count) (state, [])
      = (fill dest value count scratch).run (recording world.answer) (state, []) := rfl
  rw [hcalls]
  intro call hcall
  exact (fill_asksOnly hwrite hnote value count).run_recording rfl call hcall call.2

def Exchange.Granted (name : ι → String) (call : Exchange ι) : Prop :=
  call.1.failure? name call.2 = none ∧ Within call.1 call.2

def granted (name : ι → String) : Conduct (interface ι) (List (Exchange ι)) :=
  fun request calls answer after => after = ⟨request, answer⟩ :: calls ∧
    Exchange.Granted name ⟨request, answer⟩

def Lasting (inv : List (Exchange ι) → Prop) : Prop :=
  ∀ call calls, inv calls → inv (call :: calls)

theorem lasting_mem (call : Exchange ι) : Lasting fun calls => call ∈ calls :=
  fun _ _ hcall => List.mem_cons_of_mem _ hcall

theorem granted_note (hlasting : Lasting inv) (fact : Note) (calls : List (Exchange ι))
    (answer : Except Fault Unit) (after : List (Exchange ι)) (hinv : inv calls)
    (hanswer : granted name (.note fact) calls answer after) : answer = .ok () ∧ inv after := by
  obtain ⟨rfl, hgranted, -⟩ := hanswer
  refine ⟨?_, hlasting _ _ hinv⟩
  cases answer with
  | ok _ => rfl
  | error fault => exact absurd hgranted (by simp [Request.failure?])

theorem brings_granted (hlasting : Lasting inv) (label : String) (request : Request ι) :
    Brings (granted name) label request inv (fun _ => inv) bad := by
  rintro calls answer _ hinv ⟨rfl, hgranted, -⟩
  exact .of_none (hlasting _ _ hinv) (Request.failure?_none _ hgranted)

theorem orderly_granted (hlasting : Lasting inv) (source dest : Channel ι) (most : Nat) :
    Orderly (granted name) source dest most inv bad where
  into := by
    rintro size calls answer _ hinv ⟨rfl, hgranted, hwithin⟩
    refine .of_none ?_ (Request.failure?_none _ hgranted)
    obtain fault | ⟨stored, _ | count⟩ := answer
    · exact absurd hgranted (by simp [Request.failure?])
    · exact absurd hgranted (by simp [Request.failure?])
    · have hsome : count ≠ 0 := by
        rintro rfl
        exact absurd hgranted (by simp [Request.failure?])
      obtain ⟨hnonneg, hless⟩ := hwithin count rfl
      obtain ⟨count, rfl⟩ := Int.eq_ofNat_of_zero_le hnonneg
      exact ⟨_, rfl, count, by omega, by omega, rfl, hlasting _ _ hinv⟩
  plain := by
    rintro size calls answer _ hinv ⟨rfl, hgranted, hwithin⟩
    refine .of_none ?_ (Request.failure?_none _ hgranted)
    obtain fault | _ | data := answer
    · exact absurd hgranted (by simp [Request.failure?])
    · exact absurd hgranted (by simp [Request.failure?])
    · exact ⟨data, rfl, hwithin, hlasting _ _ hinv⟩
  write _ _ := brings_granted hlasting _ _
  seek _ _ := brings_granted hlasting _ _
  tell := brings_granted hlasting _ _
  seekable := brings_granted hlasting _ _
  note := granted_note hlasting

/-- The size is what the stream has told of its position. -/
theorem measure_granted {stream : Channel ι} {scratch : Scratch} {calls : List (Exchange ι)} :
    (measure stream).Ensures (granted name) scratch calls
      (fun size scratch' after => scratch' = scratch ∧
        ⟨.tell stream.handle, (.ok size : Except Fault (Option Int))⟩ ∈ after)
      (fun failure _ after => bad failure after) := by
  have hany : Lasting fun _ : List (Exchange ι) => True := fun _ _ _ => trivial
  have htold (size : Option Int) := lasting_mem
    (⟨.tell stream.handle, (.ok size : Except Fault (Option Int))⟩ : Exchange ι)
  have hstarted : Brings (granted name) stream.name (.tell stream.handle) (fun _ => True)
      (fun answer _ => ∀ start, answer = Except.ok start → True ∧ True) bad :=
    (brings_granted hany _ _).mono (fun _ hstate => hstate) fun _ _ _ _ _ => ⟨trivial, trivial⟩
  refine measure_brings hstarted (brings_granted hany _ _) ?_
    (fun size start => brings_granted (htold size) _ _)
    (fun size _ => brings_granted (htold size) _ _) trivial
  rintro calls answer _ - ⟨rfl, hgranted, -⟩
  refine .of_none ?_ (Request.failure?_none _ hgranted)
  rintro size rfl
  exact List.mem_cons_self ..

end Stream

end RomImage
