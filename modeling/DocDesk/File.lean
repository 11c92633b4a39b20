import DocDesk.Text.Quoted
import DocDesk.Text.Split
import DocDesk.Text.Utf8

/-!
# Files

Reading the text of an uploaded file and opening a file for writing below a folder.  Line ends are
read as single line feeds.  Where a file may be written is decided from its path alone: below the
folder there are no other folders, and above it nothing else is known.

Main statement: `unifyLines_of_no_return`.
-/

namespace DocDesk.File

/-- Why a file cannot be opened. -/
inductive Fault where
  | notFound (path : String)
  | isFolder (path : String)
  | nameTooLong (path : String)
  | nullCharacter
deriving DecidableEq, Repr

/-- The wording of a fault. -/
def Fault.message : Fault → String
  | .notFound path => "[Errno 2] No such file or directory: " ++ Text.quoted path
  | .isFolder path => "[Errno 21] Is a directory: " ++ Text.quoted path
  | .nameTooLong path => "[Errno 36] File name too long: " ++ Text.quoted path
  | .nullCharacter => "embedded null byte"

/-! ## Reading -/

/-- Line ends as single line feeds. -/
def unifyLines : List Char → List Char
  | [] => []
  | '\r' :: '\n' :: r => '\n' :: unifyLines r
  | c :: r => (if c = '\r' then '\n' else c) :: unifyLines r

/-- What was uploaded. -/
inductive Upload where
  | nothing
  | missing (path : String)
  | folder (path : String)
  | bytes (content : List Nat)
deriving DecidableEq, Repr

/-- Why an upload has no text. -/
inductive ReadFault where
  | file (fault : Fault)
  | encoding (fault : Utf8.Fault)
deriving DecidableEq, Repr

/-- The wording of a fault. -/
def ReadFault.message : ReadFault → String
  | .file f => f.message
  | .encoding f => f.message

/-- The text of an upload; nothing has the empty text. -/
def Upload.text : Upload → Except ReadFault String
  | .nothing => .ok ""
  | .missing path => .error (.file (.notFound path))
  | .folder path => .error (.file (.isFolder path))
  | .bytes content =>
    match Utf8.decode content with
    | .ok cs => .ok (String.ofList (unifyLines cs))
    | .error f => .error (.encoding f)

/-- A text without carriage returns has its lines as they are. -/
theorem unifyLines_of_no_return {cs : List Char} (h : '\r' ∉ cs) : unifyLines cs = cs := by
  induction cs with
  | nil => rfl
  | cons c r ih =>
    have hc : c ≠ '\r' := fun e => h (by simp [e])
    have hr : '\r' ∉ r := fun e => h (by simp [e])
    unfold unifyLines
    split
    · next heq => cases heq
    · next heq => cases heq; exact absurd rfl hc
    · next heq => cases heq; simp [hc, ih hr]

/-! ## Writing -/

/-- The path of a file name below a folder; a name that starts at the root is a path of its own. -/
def join (folder name : String) : String :=
  match name.toList with
  | '/' :: _ => name
  | _ => folder ++ "/" ++ name

/-- The number of bytes of a text. -/
def byteLength (cs : List Char) : Nat := cs.foldl (fun n c => n + c.utf8Size) 0

/-- Follows the folders of a path; `inside` says that the place reached is the known folder. -/
def followFolders (path : String) (inside : Bool) : List (List Char) → Except Fault Bool
  | [] => .ok inside
  | part :: parts =>
    if part = [] ∨ part = ['.'] then followFolders path inside parts
    else if part = ['.', '.'] then followFolders path false parts
    else if 255 < byteLength part then .error (.nameTooLong path)
    else .error (.notFound path)

/-- Why the file with a name below a folder cannot be opened for writing, if so. -/
def openFault? (folder name : String) : Option Fault :=
  let path := join folder name
  let parts := Text.splitAt '/' name.toList
  let last := parts.getLast?.getD []
  if '\x00' ∈ name.toList then some .nullCharacter
  else if 4096 ≤ byteLength path.toList then some (.nameTooLong path)
  else match followFolders path (name.toList.head? ≠ some '/') parts.dropLast with
    | .error f => some f
    | .ok _ =>
      if 255 < byteLength last then some (.nameTooLong path)
      else if last = [] ∨ last = ['.'] ∨ last = ['.', '.'] then some (.isFolder path)
      else none

end DocDesk.File
