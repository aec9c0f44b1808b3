import Scbl.Lib.Program
import Scbl.Manager.ClientPublish

/-!
# Publishing the client, call by call

`ClientPublisher.publish` again, with a failure or a stop possible at every call of the system. The calls that read an archive are one
operation; the files that are written beside others and then take their places, the owners and the modes are not seen in the root.
-/

namespace Scbl.Manager.ClientPublisher

open Scbl.Lib Json

abbrev Publishing := Program UpdateRoot PublishFailure

/-- A call of the system that changes nothing that is seen. -/
def otherCall : Publishing Unit := .operation .os (fun _ s => s) (fun s => .ok ((), s))

/-- `os.replace`, which is done as a whole. -/
def moveOver (put : UpdateRoot → UpdateRoot) : Publishing Unit := .operation .os (fun _ s => s) (fun s => .ok ((), put s))

/-- What `_atomic_copy` and `_atomic_write` share: a file is made beside the other one, written, and moved over it. -/
def atomically (put : UpdateRoot → UpdateRoot) : Publishing Unit := do
  -- mkdir and mkstemp
  otherCall
  otherCall
  Program.tryFinally
    (do
      -- the content, and chmod
      otherCall
      otherCall
      moveOver put)
    -- unlink
    otherCall

def atomicCopy (content : Bytes) (destination : Text) : Publishing Unit := atomically (·.setRelease destination content)

def atomicWrite (name : Text) (value : Json) : Publishing Unit := atomically (·.setFile name value)

/-- A JSON file; one that is missing or cannot be read is none. -/
def readJson (name : Text) : Publishing (Option Json) :=
  Program.tryCatch (.operation .os (fun _ s => s) (fun s => .ok (s.files name, s))) (fun _ => pure none)

/-- The root with the two files that were read, as far as they were. -/
def rootRead (manifest announcement : Option Json) : UpdateRoot :=
  { files := Function.update (Function.update (fun _ => none) AnnouncementManager.updateAnnouncement announcement) clientManifest manifest
    releases := fun _ => none }

/-- `_set_update_owner`, of the package, the manifest and the directory. -/
def setUpdateOwner : Publishing Unit := do
  otherCall
  otherCall
  otherCall

section Library

variable (unzip : Bytes → Option (List ZipInfo)) (loads : Bytes → Option Json) (sha256 : Bytes → Text)

def publishSteps (linux privileged : Bool) (archive : Option Archive) (releaseNotes : Option (List Text)) (force : Bool) :
    Publishing ClientPackage := do
  Program.ofExcept (requireRoot linux privileged)
  otherCall
  let package ← Program.ofExcept (verify unzip loads sha256 archive)
  let manifest ← readJson clientManifest
  Program.ofExcept (compareCurrent package.version (currentVersion (rootRead manifest none)) force)
  -- release_dir.mkdir
  otherCall
  atomicCopy ((archive.bind (·.content)).getD []) (releasePath package.version)
  let previous ← readJson clientManifest
  let announcement ← readJson AnnouncementManager.updateAnnouncement
  atomicWrite clientManifest (.object (manifestPayload package releaseNotes (rootRead previous announcement)))
  setUpdateOwner
  pure { package with archive := releasePath package.version }

end Library

end Scbl.Manager.ClientPublisher
