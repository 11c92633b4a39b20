import DocDesk.Proofs.Yaml.Fault.Node
import DocDesk.Proofs.Yaml.Node
import DocDesk.Proofs.Yaml.Scan.Document

/-!
# Written documents read back from YAML

With whatever indentation a document was written, what is read from its text has the texts that their
styles leave.  If a name is too long for its line nothing is read.  So a document comes back as it was
exactly if the styles keep all of its texts.

Main statements: `read_write` and `read_write_eq_self_iff`.
-/

namespace DocDesk.Yaml

/-- Nothing is refused in text that may stand as it is. -/
theorem unacceptable?_of_raw {cs : List Char} (h : Raw cs) : unacceptable? cs = none := by
  have hall : ∀ c ∈ cs, isAcceptable c = true := fun c hc => by simp [isAcceptable, h c hc]
  have hgood : cs.takeWhile isAcceptable = cs := by
    have happend : (cs ++ []).takeWhile isAcceptable = cs ++ [].takeWhile isAcceptable :=
      List.takeWhile_append_of_pos hall
    simpa using happend
  rw [unacceptable?, hgood, List.drop_length]
  rfl

section

variable {v : Json}

/-- The text of a document has no character that is refused. -/
theorem unacceptable?_write (hfinite : v.FiniteDoubles) (indent : Int) :
    unacceptable? (write indent v).toList = none := by
  rw [write, String.toList_ofList]
  exact unacceptable?_of_raw (Point.raw_document (Writer.step_range indent).1 hfinite)

/-- The tokens of the text of a document. -/
theorem yields_write (hfinite : v.FiniteDoubles) (indent : Int) :
    TokenState.Yields (.ofChars (write indent v).toList) (Point.documentKinds? v) := by
  rw [write, String.toList_ofList]
  exact Point.yields_document (Writer.step_range indent).1 hfinite

/-- A document with finite doubles, that is nested no deeper than nodes are read, is read with the texts
that their styles leave, if its names fit. -/
theorem read_write (hv : v.Representable) (hfinite : v.FiniteDoubles) (hfits : NamesFit v)
    (hdepth : v.depth ≤ Node.depthLimit) (indent : Int) : read (write indent v) = .ok (readBack v) := by
  have hyields := yields_write hfinite indent
  rw [Point.documentKinds?, if_pos hfits] at hyields
  obtain ⟨hfault, hkinds⟩ := hyields
  obtain ⟨root, hroot, hmeans⟩ := Node.exists_ofStream ⟨hv.shortIntegers, hfinite⟩ hdepth hkinds
  have hback := representable_readBack hv
  have hnodes : Node.ofStream (.ofChars (write indent v).toList) = .ok (some root) := by
    rw [← hroot, ← hfault]
  have hvalue : root.toValue = .ok (Value.ofJson (readBack v)) := by
    rw [Node.toValue, hmeans.result]
  rw [read, readChars, unacceptable?_write hfinite]
  dsimp only
  rw [hnodes]
  dsimp only [bind, Except.bind]
  rw [hvalue]
  dsimp only
  rw [Value.toJson_ofJson _ hback.shortIntegers]
  exact if_neg (Nat.not_lt.mpr hback.depth_le)

/-- A document with a name that does not fit is not read: its tokens break off at that name. -/
theorem read_write_ne_ok (hfinite : v.FiniteDoubles) (hfits : ¬ NamesFit v) (indent : Int) (w : Json) :
    read (write indent v) ≠ .ok w := by
  have hyields := yields_write hfinite indent
  rw [Point.documentKinds?, if_neg hfits] at hyields
  intro hread
  rw [read, readChars, unacceptable?_write hfinite] at hread
  obtain ⟨root, hroot, -⟩ := exists_of_bind_eq_ok hread
  exact hyields.2 (Node.streamEnd_mem_of_ofStream hroot)

/-- A document comes back as it was exactly if all of its texts are kept. -/
theorem read_write_eq_self_iff (hv : v.Representable) (hfinite : v.FiniteDoubles)
    (hdepth : v.depth ≤ Node.depthLimit) (indent : Int) :
    read (write indent v) = .ok v ↔ TextsKept v := by
  rw [textsKept_iff hv.distinctNames]
  by_cases hfits : NamesFit v
  · rw [read_write hv hfinite hfits hdepth, Except.ok.injEq]
    exact (and_iff_right hfits).symm
  · exact iff_of_false (read_write_ne_ok hfinite hfits indent v) fun h => hfits h.1

end

end DocDesk.Yaml
