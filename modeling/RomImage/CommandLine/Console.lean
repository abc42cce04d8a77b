import RomImage.Files

/-!
# The console

What the command line may ask for: everything that builds may ask of files, and printing to the two
outputs of a console.
-/

namespace RomImage

namespace Console

inductive Request (ι : Type) where
  | files (request : Files.Request ι)
  | print (text : String)
  | complain (text : String)

def Request.Answer {ι : Type} : Request ι → Type
  | files request => request.Answer
  | print _ => Unit
  | complain _ => Unit

def interface (ι : Type) : Interface :=
  ⟨Request ι, Request.Answer⟩

abbrev Work (ι : Type) := Task (interface ι)

variable {ι α : Type}

def print (text : String) : Work ι Unit :=
  Task.request (I := interface ι) (.print text)

def complain (text : String) : Work ι Unit :=
  Task.request (I := interface ι) (.complain text)

/--
Shows the notes whose rank reaches the threshold, drops the others, and passes on all other
requests.
-/
def steer (threshold : Nat) (showNote : Note → String) :
    (request : Files.Request ι) → Unit →
      Dialogue.Route (Files.interface ι) (interface ι) Unit request
  | .stream (.note fact), () =>
    if threshold ≤ fact.level.rank then .passed (.complain (showNote fact)) (fun _ => .ok ()) ()
    else .kept (Except.ok () : Except Fault Unit) ()
  | request, () => .passed (.files request) id ()

def onFiles (threshold : Nat) (showNote : Note → String) (work : Files.Work ι α) : Work ι α :=
  Task.route (steer threshold showNote) () work

end Console

end RomImage
