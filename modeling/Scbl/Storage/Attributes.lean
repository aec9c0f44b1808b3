import Scbl.Lib.Text
import Scbl.Config

/-!
# Session attributes

A game session stores its attributes as a text of entries `id => value` separated by semicolons. The code reads attribute 113,
the class of the session, in two ways: by parsing the entries, and in the trigger on `participants` by a text search in SQL.
-/

namespace Scbl.Storage

open Scbl.Lib

/-- The value of the first entry with an id. -/
def sessionAttributeValue (attributes : Text) (attributeId : Nat) : Option Nat :=
  (attributes.splitOn ';').findSome? (fun entry => do
    let (rawId, rawValue) ← splitOnce "=>".toList entry
    let id ← parseU32 (trim rawId)
    if id ≠ attributeId then none else parseU32 (trim rawValue))

/-- The attributes of a lobby. -/
def isLobbySessionAttributes (attributes : Text) : Bool := sessionAttributeValue attributes 113 = some 1

/-- The attributes of a game room. -/
def isGameRoomAttributes (attributes : Text) : Bool := sessionAttributeValue attributes 113 = some 0

/-- An entry of the attributes as the projection leaves it, and whether it was replaced; an empty entry is left out. -/
def projectEntry (entry : Text) : Option (Text × Bool) :=
  let entry := trim entry
  if entry = [] then none
  else
    match splitOnce "=>".toList entry with
    | some (rawId, _) => if trim rawId = "113".toList then some ("113 => 1".toList, true) else some (entry, false)
    | none => some (entry, false)

/-- The attributes with the class of a lobby, for the response to a private invitation. -/
def projectPrivateInviteSessionClassOnly (attributes : Text) : Text :=
  let projected := (attributes.splitOn ';').filterMap projectEntry
  let replaced := projected.any (·.2)
  joinWith ';' (projected.map (·.1) ++ if replaced then [] else ["113 => 1".toList])

/-- The text search of the trigger: `(';' || replace(attributes, ' ', '') || ';') LIKE '%;113=>class;%'`. No attributes, no
match. -/
def likeClass (attributes : Option Text) (pattern : Text) : Bool :=
  match attributes with
  | none => false
  | some attributes => containsText (';' :: attributes.filter (· ≠ ' ') ++ [';']) pattern

/-- The trigger's search for a lobby. -/
def likeLobby (attributes : Option Text) : Bool := likeClass attributes ";113=>1;".toList

/-- The trigger's search for a game room. -/
def likeGameRoom (attributes : Option Text) : Bool := likeClass attributes ";113=>0;".toList

example : isLobbySessionAttributes "5 => 0; 113 => 1".toList = true := by decide

end Scbl.Storage
