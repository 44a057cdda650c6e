import FleetAtlas.Entity.Basic
import FleetAtlas.Failure

/-!
# Names of images

* `Image.artifactName`: the name of an image without the host of an Azure registry;
* `Image.runtimeVersion`: the version that the name of a runtime image states, or the failure that names the image.
-/

namespace FleetAtlas.Image

/-- What is left of a text after a given start. -/
def dropPrefix? : List Char → List Char → Option (List Char)
  | [], cs => some cs
  | _ :: _, [] => none
  | p :: ps, c :: cs => if p = c then dropPrefix? ps cs else none

/-! ### Artifacts -/

/-- What follows the name of a registry in the name of its host. -/
def registryDomain : List Char := ".azurecr.io/".toList

/-- What follows the host of an Azure registry, if there is one: letters and digits, and the domain. -/
def afterHost? (cs : List Char) : Option (List Char) :=
  if (cs.takeWhile Char.isAlphanum).isEmpty then none
  else dropPrefix? registryDomain (cs.dropWhile Char.isAlphanum)

/-- The characters of an image without the host of an Azure registry, unless nothing or a line feed follows it. -/
def artifactChars (cs : List Char) : List Char :=
  match afterHost? cs with
  | some rest => if rest.isEmpty ∨ '\n' ∈ rest then cs else rest
  | none => cs

/-- The name of an image without the host of an Azure registry. -/
def artifactName (image : String) : String := String.ofList (artifactChars image.toList)

/-! ### Runtimes -/

/-- The start of the name of a runtime image. -/
def runtimeRepository : List Char := "dolittle/runtime:".toList

/-- The number that digits write. -/
def digitsValue (ds : List Char) : Nat := ds.foldl (fun n c => n * 10 + (c.toNat - '0'.toNat)) 0

/-- The number at the start, of one digit or more and less than `2 ^ 32`. -/
def readNumber? (cs : List Char) : Option (UInt32 × List Char) :=
  let ds := cs.takeWhile Char.isDigit
  if ds.isEmpty ∨ 4294967296 ≤ digitsValue ds then none
  else some (UInt32.ofNat (digitsValue ds), cs.dropWhile Char.isDigit)

/-- The number after a point. -/
def readNextNumber? : List Char → Option (UInt32 × List Char)
  | '.' :: rest => readNumber? rest
  | _ => none

/-- The prerelease that ends a version: nothing, or a dash and a text within the line. -/
def readPrerelease? : List Char → Option (Option String)
  | [] => some none
  | '-' :: rest => if rest.isEmpty ∨ '\n' ∈ rest then none else some (some (String.ofList rest))
  | _ :: _ => none

/-- The version that the name of a runtime image states. -/
def runtimeVersion? (image : String) : Option (Entity .runtimeVersion) := do
  let cs ← dropPrefix? runtimeRepository image.toList
  let (major, cs) ← readNumber? cs
  let (minor, cs) ← readNextNumber? cs
  let (patch, cs) ← readNextNumber? cs
  let prerelease ← readPrerelease? cs
  return .runtimeVersion major minor patch prerelease none

/-- The version that the name of a runtime image states; the failure of a name that states none. -/
def runtimeVersion (image : String) : Except Failure (Entity .runtimeVersion) :=
  match runtimeVersion? image with
  | some version => .ok version
  | none => .error (.unparsableRuntime image)

end FleetAtlas.Image
