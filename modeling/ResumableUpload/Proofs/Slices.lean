import Mathlib.Data.List.Forall2
import ResumableUpload.Source.File
import ResumableUpload.Source.Memory

/-!
# Sources hand out slices

A source in memory and a source on disk answer every range alike: with the slice of the content, or
by saying that it is out of bounds. What the cursor of the file has been moved to by other ranges
makes no difference. When the file is resized later the bounds stay as they were, and of the ranges
within them those are refused that the file no longer holds.

* `ByteRange.checkWithin_words` : bounds in words of 64 bits, whose sums may wrap around.
* `Source.Serves` : the answer to a range.
* `Source.File.results_readAll` : no answer depends on the ranges before.
* `Source.File.resize_serves` : the answer when the file has been resized.
* `Source.agree` : what the two sources answer, before and after the file is resized.
-/

namespace ResumableUpload

namespace ByteRange

theorem checkWithin_of_lt {r : ByteRange} {size : Nat} (h : size < r.offset + r.length) :
    r.checkWithin size = .error (.outOfBounds r size) :=
  if_neg (Nat.not_le.2 h)

/-- A range of words lies within a size if the sum of its words does not wrap around and is not
larger. -/
theorem checkWithin_words (offset length size : UInt64) :
    (⟨offset.toNat, length.toNat⟩ : ByteRange).checkWithin size.toNat = .ok () ↔
      offset ≤ offset + length ∧ offset + length ≤ size := by
  rw [checkWithin_eq_ok_iff, UInt64.le_iff_toNat_le, UInt64.le_iff_toNat_le, UInt64.toNat_add]
  have hoffset := offset.toNat_lt
  have hlength := length.toNat_lt
  have hsize := size.toNat_lt
  dsimp only
  omega

end ByteRange

namespace Source

/-- The bytes of a range of some content. -/
structure IsSlice (content : ByteArray) (r : ByteRange) (bytes : ByteArray) : Prop where
  size_eq : bytes.size = r.length
  get_eq : ∀ i < r.length, bytes[i]? = content[r.offset + i]?

/-- The answer to a range of some content, of which `size` bytes can still be read. -/
inductive Serves (content : ByteArray) (size : Nat) (r : ByteRange) :
    Except ReadError ByteArray → Prop
  | slice {bytes : ByteArray} (hin : r.offset + r.length ≤ content.size)
      (hsize : r.length = 0 ∨ r.offset + r.length ≤ size) (hbytes : IsSlice content r bytes) :
      Serves content size r (.ok bytes)
  | cut (hin : r.offset + r.length ≤ content.size) (hlength : r.length ≠ 0)
      (hsize : size < r.offset + r.length) :
      Serves content size r (.error (.system .unexpectedEof))
  | outside (hout : content.size < r.offset + r.length) :
      Serves content size r (.error (.outOfBounds r content.size))

/-- Where there still is something in the place of some content, it is the content. -/
def Preserves (content present : ByteArray) : Prop :=
  ∀ i, (hi : i < present.size) → (hi' : i < content.size) → present[i] = content[i]

variable {content present : ByteArray} {r : ByteRange} {size : Nat}

theorem isSlice_extract (hkept : Preserves content present)
    (hin : r.offset + r.length ≤ content.size)
    (henough : r.length = 0 ∨ r.offset + r.length ≤ present.size) :
    IsSlice content r (present.extract r.offset r.stop) := by
  have hsize : (present.extract r.offset r.stop).size = r.length := by
    rw [ByteArray.size_extract, ByteRange.stop]
    omega
  refine ⟨hsize, fun i hi => ?_⟩
  have hleft : r.offset + i < present.size := by omega
  rw [getElem?_pos _ _ (by omega), getElem?_pos _ _ (by omega), ByteArray.getElem_extract,
    hkept _ hleft]

/-! ### The source in memory -/

theorem Memory.read_of_in (h : r.offset + r.length ≤ content.size) :
    (Memory.mk content).read r = .ok (content.extract r.offset r.stop) := by
  rw [read, size, ByteRange.checkWithin_eq_ok_iff.2 h]
  rfl

theorem Memory.read_of_out (h : content.size < r.offset + r.length) :
    (Memory.mk content).read r = .error (.outOfBounds r content.size) := by
  rw [read, size, ByteRange.checkWithin_of_lt h]
  rfl

theorem Memory.read_serves (content : ByteArray) (r : ByteRange) :
    Serves content content.size r ((Memory.mk content).read r) := by
  by_cases h : r.offset + r.length ≤ content.size
  · rw [read_of_in h]
    exact .slice h (.inr h) (isSlice_extract (fun _ _ _ => rfl) h (.inr h))
  · rw [read_of_out (Nat.not_le.1 h)]
    exact .outside (Nat.not_le.1 h)

/-! ### The source on disk -/

namespace OpenFile

variable {f : OpenFile} {count : Nat}

theorem readExact_content (f : OpenFile) (count : Nat) :
    (f.readExact count).2.content = f.content := by
  unfold readExact
  dsimp only
  split <;> rfl

theorem readExact_of_enough (h : count = 0 ∨ f.cursor + count ≤ f.content.size) :
    (f.readExact count).1 = .ok (f.content.extract f.cursor (f.cursor + count)) := by
  rw [readExact, if_pos h]

theorem readExact_of_cut (hcount : count ≠ 0) (h : f.content.size < f.cursor + count) :
    (f.readExact count).1 = .error .unexpectedEof := by
  rw [readExact, if_neg (by omega)]

theorem size_resize (f : OpenFile) (size : Nat) : (f.resize size).content.size = size := by
  have hzeros (n : Nat) : (ByteArray.mk (Array.replicate n 0)).size = n := Array.size_replicate
  rw [resize, ByteArray.size_append, ByteArray.size_extract, hzeros]
  omega

/-- What is left of a file when it is resized has not changed. -/
theorem preserves_resize (f : OpenFile) (size : Nat) :
    Preserves f.content (f.resize size).content := by
  intro i hi hi'
  have hleft : i < (f.content.extract 0 size).size := by
    rw [size_resize] at hi
    rw [ByteArray.size_extract]
    omega
  simp only [resize, ByteArray.getElem_append_left hleft, ByteArray.getElem_extract, Nat.zero_add]

end OpenFile

namespace File

variable {s s' : File}

/-- The second file is the first one but for its cursor. -/
structure Keeps (s s' : File) : Prop where
  content_eq : s'.file.content = s.file.content
  size_eq : s'.size = s.size

theorem keeps_read (s : File) (r : ByteRange) : Keeps s (s.read r).2 := by
  unfold read
  split
  · exact ⟨rfl, rfl⟩
  · exact ⟨OpenFile.readExact_content _ _, rfl⟩

theorem keeps_readAll (s : File) (rs : List ByteRange) : Keeps s (s.readAll rs).2 := by
  induction rs generalizing s with
  | nil => exact ⟨rfl, rfl⟩
  | cons r rs ih =>
    have hfirst := keeps_read s r
    have hrest := ih (s.read r).2
    exact ⟨hrest.content_eq.trans hfirst.content_eq, hrest.size_eq.trans hfirst.size_eq⟩

theorem read_of_out (h : s.size < r.offset + r.length) :
    (s.read r).1 = .error (.outOfBounds r s.size) := by
  rw [read, ByteRange.checkWithin_of_lt h]

/-- The cursor is moved to the range first, wherever it was. -/
theorem read_of_in (h : r.offset + r.length ≤ s.size) :
    (s.read r).1 =
      ((OpenFile.mk s.file.content r.offset).readExact r.length).1.mapError .system := by
  rw [read, ByteRange.checkWithin_eq_ok_iff.2 h]
  rfl

theorem Keeps.result_eq (h : Keeps s s') (r : ByteRange) : (s'.read r).1 = (s.read r).1 := by
  by_cases hin : r.offset + r.length ≤ s.size
  · rw [read_of_in hin, read_of_in (h.size_eq ▸ hin), h.content_eq]
  · have hout := Nat.not_le.1 hin
    rw [read_of_out hout, read_of_out (h.size_eq ▸ hout), h.size_eq]

theorem results_readAll (s : File) (rs : List ByteRange) :
    (s.readAll rs).1 = rs.map fun r => (s.read r).1 := by
  induction rs generalizing s with
  | nil => rfl
  | cons r rs ih =>
    have hrest : ((s.read r).2.readAll rs).1 = rs.map fun r => (s.read r).1 := by
      rw [ih]
      exact List.map_congr_left fun r' _ => (keeps_read s r).result_eq r'
    exact congrArg ((s.read r).1 :: ·) hrest

theorem read_serves (hsize : s.size = content.size) (hkept : Preserves content s.file.content)
    (r : ByteRange) : Serves content s.file.content.size r (s.read r).1 := by
  by_cases hin : r.offset + r.length ≤ content.size
  · rw [read_of_in (hsize ▸ hin)]
    by_cases henough : r.length = 0 ∨ r.offset + r.length ≤ s.file.content.size
    · rw [OpenFile.readExact_of_enough henough]
      exact .slice hin henough (isSlice_extract hkept hin henough)
    · obtain ⟨hlength, hcut⟩ := not_or.1 henough
      rw [OpenFile.readExact_of_cut hlength (Nat.not_le.1 hcut)]
      exact .cut hin hlength (Nat.not_le.1 hcut)
  · have hout := Nat.not_le.1 hin
    rw [read_of_out (hsize ▸ hout), hsize]
    exact .outside hout

theorem resize_serves (hcontent : s.file.content = content) (hsize : s.size = content.size)
    (size : Nat) (r : ByteRange) : Serves content size r ((s.resize size).read r).1 := by
  subst hcontent
  have hserves := read_serves (s := s.resize size) hsize (OpenFile.preserves_resize s.file size) r
  rwa [resize, OpenFile.size_resize] at hserves

theorem read_opening (content : ByteArray) (r : ByteRange) :
    ((opening content).read r).1 = (Memory.mk content).read r := by
  by_cases hin : r.offset + r.length ≤ content.size
  · rw [read_of_in hin, Memory.read_of_in hin, OpenFile.readExact_of_enough (.inr hin)]
    rfl
  · have hout := Nat.not_le.1 hin
    rw [read_of_out hout, Memory.read_of_out hout]
    rfl

end File

/-! ### Both sources -/

/-- What sources with this content answer. -/
structure Agree (content : ByteArray) : Prop where
  memory : ∀ r, Serves content content.size r ((Memory.mk content).read r)
  /-- The file answers each range as the memory does, whatever it has answered before. -/
  file : ∀ rs, ((File.opening content).readAll rs).1 = rs.map (Memory.mk content).read
  /-- After some answers the file is resized. What lay within its bounds still does. -/
  resized : ∀ rs size rs', List.Forall₂ (Serves content size) rs'
    ((((File.opening content).readAll rs).2.resize size).readAll rs').1
  /-- No sum of two words is taken for a smaller one. -/
  words : ∀ offset length size : UInt64,
    (⟨offset.toNat, length.toNat⟩ : ByteRange).checkWithin size.toNat = .ok () ↔
      offset ≤ offset + length ∧ offset + length ≤ size

/-- **The two sources hand out the same slices**, and a file that has been resized hands out those
that are left. -/
theorem agree (content : ByteArray) : Agree content where
  memory := Memory.read_serves content
  file rs := by
    rw [File.results_readAll]
    exact List.map_congr_left fun r _ => File.read_opening content r
  resized rs size rs' := by
    have hkeeps := File.keeps_readAll (File.opening content) rs
    rw [File.results_readAll, List.forall₂_map_right_iff, List.forall₂_same]
    exact fun r _ => File.resize_serves hkeeps.content_eq hkeeps.size_eq size r
  words := ByteRange.checkWithin_words

end Source

end ResumableUpload
