import DocDesk.Panel.Convert
import DocDesk.Proofs.Text.Parts
import Mathlib.Data.List.TakeDrop

/-!
# Where an export lands

A path is followed part by part from the root: `.` and nothing stay, `..` goes back and any other name
goes on.  The file of an export lies in its folder exactly if its name neither starts at the root nor
goes back, and nothing keeps a name from doing so.

Main statements: `exists_place_join` and `exportOutput_lands`.
-/

namespace DocDesk

namespace File

/-! ## Places -/

/-- A part of a path that names nothing by itself. -/
def IsStep (part : List Char) : Prop := part = [] ∨ part = ['.'] ∨ part = ['.', '.']

/-- The names on the way from the root after following parts of a path from a place. -/
def follow (place : List (List Char)) : List (List Char) → List (List Char)
  | [] => place
  | part :: parts =>
    if part = [] ∨ part = ['.'] then follow place parts
    else if part = ['.', '.'] then follow place.dropLast parts
    else follow (place ++ [part]) parts

/-- The names on the way from the root to where a path leads. -/
def placeOf (path : String) : List (List Char) := follow [] (Text.splitAt '/' path.toList)

/-- A name that does not start at the root and does not go back. -/
def StaysBelow (name : String) : Prop :=
  name.toList.head? ≠ some '/' ∧ ['.', '.'] ∉ Text.splitAt '/' name.toList

section Places

variable {place parts : List (List Char)} {part : List Char}

/-- Parts are followed one after the other. -/
theorem follow_append (place parts more : List (List Char)) :
    follow place (parts ++ more) = follow (follow place parts) more := by
  induction parts generalizing place with
  | nil => rfl
  | cons part parts ih =>
    simp only [List.cons_append, follow, ih]
    split
    · rfl
    · split <;> rfl

/-- A name leads into a folder. -/
theorem follow_name (h : ¬ IsStep part) (place : List (List Char)) :
    follow place [part] = place ++ [part] := by
  simp only [IsStep, not_or] at h
  rw [follow, if_neg (by simp [h.1, h.2.1]), if_neg h.2.2]
  rfl

/-- Parts without names of their own go back once for each `..`. -/
theorem follow_steps (h : ∀ part ∈ parts, IsStep part) (place : List (List Char)) :
    follow place parts = place.take (place.length - parts.count ['.', '.']) := by
  induction parts generalizing place with
  | nil => simp [follow]
  | cons part parts ih =>
    have hrest := ih fun p hp => h p (List.mem_cons_of_mem _ hp)
    rw [follow]
    rcases h part List.mem_cons_self with rfl | rfl | rfl
    · rw [if_pos (.inl rfl), hrest, List.count_cons_of_ne (by simp)]
    · rw [if_pos (.inr rfl), hrest, List.count_cons_of_ne (by simp)]
    · rw [if_neg (by simp), if_pos rfl, hrest, List.count_cons_self, List.dropLast_eq_take,
        List.take_take, List.length_take]
      congr 1
      omega

end Places

/-! ## Opening -/

section Opening

variable {folder name path : String}

/-- What was followed are steps without a name. -/
theorem followFolders_ok {inside b : Bool} {parts : List (List Char)}
    (h : followFolders path inside parts = .ok b) : ∀ part ∈ parts, IsStep part := by
  induction parts generalizing inside with
  | nil => simp
  | cons part parts ih =>
    rw [followFolders] at h
    split at h
    · next hstay => exact List.forall_mem_cons.mpr ⟨hstay.elim .inl fun he => .inr (.inl he), ih h⟩
    · split at h
      · next hback => exact List.forall_mem_cons.mpr ⟨.inr (.inr hback), ih h⟩
      · split at h <;> cases h

/-- Following folders meets no null character. -/
theorem followFolders_ne_null {inside : Bool} {parts : List (List Char)} :
    followFolders path inside parts ≠ .error .nullCharacter := by
  induction parts generalizing inside with
  | nil => simp [followFolders]
  | cons part parts ih =>
    rw [followFolders]
    split
    · exact ih
    · split
      · exact ih
      · split <;> simp

/-- A null character is refused, whatever else is wrong, and that refusal is about nothing else. -/
theorem openFault?_eq_null_iff (folder name : String) :
    openFault? folder name = some .nullCharacter ↔ '\x00' ∈ name.toList := by
  unfold openFault?
  dsimp only
  by_cases hnull : '\x00' ∈ name.toList
  · rw [if_pos hnull]
    exact iff_of_true rfl hnull
  · refine iff_of_false ?_ hnull
    rw [if_neg hnull]
    split
    · simp
    · split
      · next f hf =>
        rw [Option.some.injEq]
        rintro rfl
        exact followFolders_ne_null hf
      · split
        · simp
        · split <;> simp

/-- What can be opened is one name behind parts without names of their own. -/
theorem exists_parts_of_openFault? (h : openFault? folder name = none) :
    ∃ steps last, Text.splitAt '/' name.toList = steps ++ [last] ∧
      (∀ part ∈ steps, IsStep part) ∧ ¬ IsStep last := by
  have hne := Text.splitAt_ne_nil '/' name.toList
  unfold openFault? at h
  dsimp only at h
  rw [List.getLast?_eq_some_getLast hne, Option.getD_some] at h
  refine ⟨_, _, (List.dropLast_concat_getLast hne).symm, ?_⟩
  split at h
  · cases h
  · split at h
    · cases h
    · split at h
      · cases h
      · next b hb =>
        split at h
        · cases h
        · split at h
          · cases h
          · next hlast => exact ⟨followFolders_ok hb, hlast⟩

/-- From some place, one name behind parts without names of their own leads to its own, past as much of
the place as the parts leave. -/
theorem follow_steps_name {steps : List (List Char)} {last : List Char}
    (hsteps : ∀ part ∈ steps, IsStep part) (hlast : ¬ IsStep last) (place : List (List Char)) :
    follow place (steps ++ [last])
      = place.take (place.length - steps.count ['.', '.']) ++ [last] := by
  rw [follow_append, follow_steps hsteps, follow_name hlast]

/-- A file in a folder is reached from the place of the folder. -/
theorem placeOf_join (folder name : String) :
    placeOf (join folder name) =
      follow (if name.toList.head? = some '/' then [] else placeOf folder)
        (Text.splitAt '/' name.toList) := by
  unfold join
  split
  · next r hname => rw [hname, List.head?_cons, if_pos rfl, placeOf, hname]
  · next hname =>
    have hfolder : (folder ++ "/" ++ name).toList = folder.toList ++ '/' :: name.toList := by simp
    have hhead : ¬ name.toList.head? = some '/' := by
      intro hhead
      obtain ⟨r, hr⟩ := List.head?_eq_some_iff.mp hhead
      exact hname r hr
    rw [if_neg hhead, placeOf, hfolder, Text.splitAt_append_sep, follow_append, placeOf]

/-- One name behind other parts leads into the folder exactly if these do not lead out of it. -/
theorem exists_place_join (folder : String) {steps : List (List Char)} {last : List Char}
    (hparts : Text.splitAt '/' name.toList = steps ++ [last]) (hsteps : ∀ part ∈ steps, IsStep part)
    (hlast : ¬ IsStep last) :
    ∃ place, placeOf (join folder name) = place ++ [last] ∧
      (place = placeOf folder ↔ StaysBelow name ∨ placeOf folder = []) := by
  have hback : ['.', '.'] ∉ Text.splitAt '/' name.toList ↔ steps.count ['.', '.'] = 0 := by
    rw [hparts, List.count_eq_zero, List.mem_append, List.mem_singleton, not_or]
    exact and_iff_left fun he => hlast (.inr (.inr he.symm))
  rw [placeOf_join, hparts, follow_steps_name hsteps hlast, StaysBelow, hback]
  refine ⟨_, rfl, ?_⟩
  have hlength : ∀ n, (placeOf folder).length ≤ (placeOf folder).length - n ↔
      n = 0 ∨ placeOf folder = [] := by
    intro n
    rw [← List.length_eq_zero_iff]
    omega
  by_cases hroot : name.toList.head? = some '/'
  · rw [if_pos hroot, List.take_nil, eq_comm]
    exact (or_iff_right fun h => h.1 hroot).symm
  · rw [if_neg hroot, List.take_eq_self_iff, hlength, and_iff_right hroot]

end Opening

end File

namespace Panel

/-! ## File names -/

/-- An extension is at the end of a name, whatever the case of its letters. -/
theorem hasExtension_iff {extension name : List Char} :
    hasExtension extension name = true ↔ extension <:+ lowered name := by
  rw [hasExtension, Option.isSome_iff_exists]
  constructor
  · rintro ⟨r, hr⟩
    rw [Text.after?_eq_some_iff] at hr
    exact List.reverse_prefix.mp ⟨r, hr.symm⟩
  · intro h
    obtain ⟨r, hr⟩ := List.reverse_prefix.mpr h
    exact ⟨r, Text.after?_eq_some_iff.mpr hr.symm⟩

/-- The extension of a path is that of its last part. -/
theorem hasExtension_last {extension name last : List Char} {steps : List (List Char)}
    (hslash : '/' ∉ extension) (hparts : Text.splitAt '/' name = steps ++ [last])
    (h : hasExtension extension name = true) : hasExtension extension last = true := by
  rw [hasExtension_iff] at h ⊢
  have hname := Text.join_splitAt '/' name
  rw [hparts] at hname
  by_cases hsteps : steps = []
  · rw [hsteps, List.nil_append, Text.join] at hname
    rwa [hname]
  · rw [Text.join_concat hsteps] at hname
    rw [← hname, List.append_assoc, lowered_append, lowered_append] at h
    have hcut : ['/'] ++ lowered last <:+ lowered (Text.join ['/'] steps) ++ (['/'] ++ lowered last) :=
      List.suffix_append ..
    -- a longer extension would hold the separator
    rcases List.suffix_or_suffix_of_suffix h hcut with hext | hext
    · rcases List.suffix_cons_iff.mp hext with rfl | hext
      · exact absurd List.mem_cons_self hslash
      · exact hext
    · exact absurd (hext.mem List.mem_cons_self) hslash

/-- The extension of a conversion is a word in lower case. -/
theorem extension_chars (c : Conversion) :
    lowered ('.' :: c.extension.toList) = '.' :: c.extension.toList ∧
      2 < ('.' :: c.extension.toList).length ∧
      '/' ∉ '.' :: c.extension.toList ∧ '\x00' ∉ '.' :: c.extension.toList := by
  cases c <;> decide

/-- A null character in the name of a file comes from the name that was given. -/
theorem null_mem_fileName {extension : List Char} (h : '\x00' ∉ extension) (name : Option String) :
    '\x00' ∈ (fileName extension name).toList ↔ '\x00' ∈ (name.getD "").toList := by
  obtain ⟨u, v, hu, hv, hcut⟩ := Text.strip_split (name.getD "").toList
  have hgiven : '\x00' ∈ (name.getD "").toList ↔ '\x00' ∈ Text.strip (name.getD "").toList := by
    have hmem := congrArg ('\x00' ∈ ·) hcut
    simp only [List.mem_append, hu.notMem (c := '\x00') (by decide),
      hv.notMem (c := '\x00') (by decide), false_or, or_false] at hmem
    exact iff_of_eq hmem
  rw [hgiven, fileName]
  generalize Text.strip (name.getD "").toList = given
  have hbase : '\x00' ∈ (if given.isEmpty then "converted".toList else given) ↔ '\x00' ∈ given := by
    split
    · next hempty => simp [List.isEmpty_iff.mp hempty]
    · rfl
  generalize (if given.isEmpty then "converted".toList else given) = base at hbase ⊢
  rw [String.toList_ofList]
  split
  · exact hbase
  · rw [List.mem_append, hbase, or_iff_left h]

/-- A part with an extension is a name. -/
theorem not_isStep_of_hasExtension {extension part : List Char} (hlong : 2 < extension.length)
    (h : hasExtension extension part = true) : ¬ File.IsStep part := by
  have hlength := (hasExtension_iff.mp h).length_le
  rw [lowered, List.length_map] at hlength
  rintro (rfl | rfl | rfl)
  · simp only [List.length_nil] at hlength
    omega
  · simp only [List.length_cons, List.length_nil] at hlength
    omega
  · simp only [List.length_cons, List.length_nil] at hlength
    omega

/-! ## Exports -/

section Export

variable {folder output : String} {label : Json} {c : Conversion}

section Cases

variable {name : Option String} {file path : String} (houtput : output ≠ "")
  (hlabel : Conversion.ofChoice label = .ok c)
  (hfile : fileName ('.' :: c.extension.toList) name = file) (hpath : File.join folder file = path)
include houtput hlabel hfile hpath

/-- A file that can be opened is written. -/
theorem exportOutput_of_opened (hopen : File.openFault? folder file = none) :
    exportOutput folder output label name =
      .ok (.ok ⟨some (path, output), "Export successful! Saved to " ++ path⟩) := by
  subst hfile hpath
  rw [exportOutput, if_neg houtput, hlabel]
  simp only [bind, Except.bind, hopen]

/-- A null character in its name is raised. -/
theorem exportOutput_of_null (hopen : File.openFault? folder file = some .nullCharacter) :
    exportOutput folder output label name = .ok (.error .nullCharacter) := by
  subst hfile hpath
  rw [exportOutput, if_neg houtput, hlabel]
  simp only [bind, Except.bind, hopen]

/-- Any other fault is told. -/
theorem exportOutput_of_fault {f : File.Fault} (hopen : File.openFault? folder file = some f)
    (hf : f ≠ .nullCharacter) :
    exportOutput folder output label name = .ok (.ok ⟨none, "Error during export: " ++ f.message⟩) := by
  subst hfile hpath
  rw [exportOutput, if_neg houtput, hlabel]
  simp only [bind, Except.bind, hopen]

end Cases

/-- A file with a short name of one part can be opened. -/
theorem openFault?_of_plain {file : String} (hnull : '\x00' ∉ file.toList) (hslash : '/' ∉ file.toList)
    (hname : File.byteLength file.toList ≤ 255)
    (hpath : File.byteLength (File.join folder file).toList < 4096)
    (hstep : ¬ File.IsStep file.toList) : File.openFault? folder file = none := by
  simp only [File.IsStep] at hstep
  simp only [File.openFault?, Text.splitAt_of_notMem hslash, if_neg hnull, List.dropLast_singleton,
    File.followFolders, List.getLast?_singleton, Option.getD_some, if_neg (Nat.not_le.mpr hpath),
    if_neg (Nat.not_lt.mpr hname), if_neg hstep]

/-- An export of a non-empty text by a conversion breaks off exactly if the given name has a null
character.  Otherwise it writes nothing and tells an error, or writes the text to a file whose last name
has the extension; a short name of one part is always written.  The file lies in the folder exactly if
its name neither starts at the root nor goes back. -/
theorem exportOutput_lands (houtput : output ≠ "") (hlabel : Conversion.ofChoice label = .ok c)
    (name : Option String) {file path : String}
    (hfile : fileName ('.' :: c.extension.toList) name = file) (hpath : File.join folder file = path) :
    (exportOutput folder output label name = .ok (.error .nullCharacter) ↔
      '\x00' ∈ (name.getD "").toList) ∧
    ('\x00' ∉ (name.getD "").toList → ∃ reply,
      exportOutput folder output label name = .ok (.ok reply) ∧
      ((∃ f : File.Fault, reply = ⟨none, "Error during export: " ++ f.message⟩) ∨
        reply = ⟨some (path, output), "Export successful! Saved to " ++ path⟩ ∧
          ∃ place last, File.placeOf path = place ++ [last] ∧
            hasExtension ('.' :: c.extension.toList) last = true ∧
            (place = File.placeOf folder ↔ File.StaysBelow file ∨ File.placeOf folder = [])) ∧
      ('/' ∉ file.toList → File.byteLength file.toList ≤ 255 → File.byteLength path.toList < 4096 →
        reply.written = some (path, output))) := by
  obtain ⟨hlower, hlong, hslash, hnone⟩ := extension_chars c
  have hnull := null_mem_fileName hnone name
  have hext := fileName_extension hlower name
  rw [hfile] at hnull hext
  rw [← hnull]
  cases hopen : File.openFault? folder file with
  | some f =>
    by_cases hf : f = .nullCharacter
    · -- the refusal that nobody tells
      rw [hf] at hopen
      have hmem := (File.openFault?_eq_null_iff folder file).mp hopen
      have hbroken := exportOutput_of_null houtput hlabel hfile hpath hopen
      exact ⟨iff_of_true hbroken hmem, fun hnot => absurd hmem hnot⟩
    · have hnot : '\x00' ∉ file.toList := by
        rw [← File.openFault?_eq_null_iff folder, hopen, Option.some.injEq]
        exact hf
      have hreply := exportOutput_of_fault houtput hlabel hfile hpath hopen hf
      rw [hreply]
      refine ⟨iff_of_false (by simp) hnot, fun _ => ⟨_, rfl, .inl ⟨f, rfl⟩, ?_⟩⟩
      intro hplain hshort hbytes
      have hstep := not_isStep_of_hasExtension hlong hext
      rw [openFault?_of_plain hnot hplain hshort (hpath ▸ hbytes) hstep] at hopen
      cases hopen
  | none =>
    have hnot : '\x00' ∉ file.toList := by
      rw [← File.openFault?_eq_null_iff folder, hopen]
      simp
    obtain ⟨steps, last, hparts, hsteps, hlast⟩ := File.exists_parts_of_openFault? hopen
    obtain ⟨place, hplace⟩ := File.exists_place_join folder hparts hsteps hlast
    rw [hpath] at hplace
    have hlands := hasExtension_last hslash hparts hext
    rw [exportOutput_of_opened houtput hlabel hfile hpath hopen]
    refine ⟨iff_of_false (by simp) hnot, fun _ => ⟨_, rfl, .inr ⟨rfl, place, last, ?_⟩, ?_⟩⟩
    · exact ⟨hplace.1, hlands, hplace.2⟩
    · exact fun _ _ _ => rfl

end Export

/-- A name with blanks around it and an extension of its own. -/
theorem exportOutput_lands_dotted : "a: 1\n" ≠ "" ∧
    Conversion.ofChoice (.str "JSON → YAML") = .ok .jsonToYaml ∧
    fileName ".yaml".toList (some " ./out.YAML ") = "./out.YAML" ∧
    File.join "/tmp" "./out.YAML" = "/tmp/./out.YAML" ∧
    exportOutput "/tmp" "a: 1\n" (.str "JSON → YAML") (some " ./out.YAML ") =
      .ok (.ok ⟨some ("/tmp/./out.YAML", "a: 1\n"), "Export successful! Saved to /tmp/./out.YAML"⟩) ∧
    ∃ last, File.placeOf "/tmp/./out.YAML" = File.placeOf "/tmp" ++ [last] ∧
      hasExtension ".yaml".toList last = true := by
  have houtput : "a: 1\n" ≠ "" := by decide
  have hlabel : Conversion.ofChoice (.str "JSON → YAML") = .ok .jsonToYaml := rfl
  have hfile : fileName ".yaml".toList (some " ./out.YAML ") = "./out.YAML" := by decide
  have hpath : File.join "/tmp" "./out.YAML" = "/tmp/./out.YAML" := by decide
  have hopen : File.openFault? "/tmp" "./out.YAML" = none := by decide
  have hreply := exportOutput_of_opened houtput hlabel hfile hpath hopen
  refine ⟨houtput, hlabel, hfile, hpath, hreply, ?_⟩
  obtain ⟨-, hlands⟩ := exportOutput_lands houtput hlabel (some " ./out.YAML ") hfile hpath
  obtain ⟨reply, hsame, hcases, -⟩ := hlands (by decide)
  rw [hreply] at hsame
  cases hsame
  rcases hcases with ⟨f, hf⟩ | ⟨-, place, last, hplace, hlast, hbelow⟩
  · cases hf
  · rw [hbelow.mpr (.inl ⟨by decide, by decide⟩)] at hplace
    exact ⟨last, hplace, hlast⟩

/-- A name that goes back leaves the folder, and a null character is refused where nobody tells it. -/
theorem exportOutput_leaves :
    exportOutput "/tmp" "a: 1\n" (.str "JSON → YAML") (some "../x") =
        .ok (.ok ⟨some ("/tmp/../x.yaml", "a: 1\n"), "Export successful! Saved to /tmp/../x.yaml"⟩) ∧
      File.placeOf "/tmp/../x.yaml" = ["x.yaml".toList] ∧ File.placeOf "/tmp" = ["tmp".toList] ∧
      exportOutput "/tmp" "a: 1\n" (.str "JSON → YAML") (some "a\x00b") =
        .ok (.error .nullCharacter) := by
  have houtput : "a: 1\n" ≠ "" := by decide
  have hlabel : Conversion.ofChoice (.str "JSON → YAML") = .ok .jsonToYaml := rfl
  have hback : fileName ".yaml".toList (some "../x") = "../x.yaml" := by decide
  have hnull : fileName ".yaml".toList (some "a\x00b") = "a\x00b.yaml" := by decide
  refine ⟨?_, by decide, by decide, ?_⟩
  · exact exportOutput_of_opened houtput hlabel hback (by decide) (by decide)
  · exact exportOutput_of_null houtput hlabel hnull rfl (by decide)

end Panel

end DocDesk
