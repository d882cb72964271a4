import DspHost.Cache.Request
import Mathlib.Data.List.Basic
import Mathlib.Data.Set.Function
import Mathlib.Order.Basic

/-!
# What a digest is taken of

The bytes that identify a compilation spell out the source, the memory mode and the arguments, every
text preceded by its length. They can be read back as long as every number fits the word that it is
stored in, so that requests with the same bytes are the same request.

## Main definitions

* `CompileRequest.digested` — the bytes that a fingerprint is the digest of
* `CompileRequest.Fits` — every number in these bytes fits its word

## Main results

* `digestField_append_inj` — a text that is preceded by its length can be split off
* `digestInput_inj` — the bytes determine what they were made of
* `CompileRequest.eq_of_digested_eq` — the bytes determine the request
* `CompileRequest.eq_of_fingerprint_eq` — so do fingerprints, among requests whose digests do not
  collide
-/

namespace DspHost

/-! ### Words and texts -/

theorem mod_eq_of_wordBytes_eq {count a b : ℕ} (h : wordBytes count a = wordBytes count b) :
    a % power 256 count = b % power 256 count := by
  rw [← wordValue_wordBytes, ← wordValue_wordBytes, h]

theorem byteArray_toList_loop_eq (bytes : ByteArray) (i : ℕ) (read : List UInt8) :
    ByteArray.toList.loop bytes i read = read.reverse ++ bytes.data.toList.drop i := by
  induction i, read using ByteArray.toList.loop.induct bytes with
  | case1 i read hlt ih =>
    have hi : i < bytes.data.toList.length := hlt
    have hget : bytes.get! i = bytes.data.toList[i] := getElem!_pos bytes.data i hlt
    rw [ByteArray.toList.loop, if_pos hlt, ih, List.drop_eq_getElem_cons hi, hget]
    simp
  | case2 i read hge =>
    have hdone : bytes.data.toList.length ≤ i := Nat.le_of_not_lt hge
    rw [ByteArray.toList.loop, if_neg hge, List.drop_eq_nil_of_le hdone, List.append_nil]

theorem byteArray_toList_eq (bytes : ByteArray) : bytes.toList = bytes.data.toList := by
  rw [ByteArray.toList, byteArray_toList_loop_eq]
  rfl

theorem length_toUTF8_toList (text : String) : text.toUTF8.toList.length = text.utf8ByteSize := by
  rw [byteArray_toList_eq]
  rfl

theorem toUTF8_toList_inj {s t : String} (h : s.toUTF8.toList = t.toUTF8.toList) : s = t := by
  rw [byteArray_toList_eq, byteArray_toList_eq] at h
  exact String.toByteArray_inj.mp (ByteArray.ext (Array.toList_inj.mp h))

/-! ### Fields -/

/-- A text that is preceded by its length can be split off, where the word that holds the length
tells the lengths apart. -/
theorem digestField_append_inj_of_mod {s t : String} {xs ys : List UInt8}
    (hsize : s.utf8ByteSize % power 256 8 = t.utf8ByteSize % power 256 8 →
      s.utf8ByteSize = t.utf8ByteSize)
    (h : digestField s ++ xs = digestField t ++ ys) : s = t ∧ xs = ys := by
  simp only [digestField, List.append_assoc] at h
  obtain ⟨hword, hrest⟩ := List.append_inj h (by simp only [length_wordBytes])
  have hsize := hsize (mod_eq_of_wordBytes_eq hword)
  obtain ⟨htext, hrest⟩ := List.append_inj hrest (by simpa only [length_toUTF8_toList])
  exact ⟨toUTF8_toList_inj htext, hrest⟩

/-- A text that is preceded by its length can be split off. -/
theorem digestField_append_inj {s t : String} {xs ys : List UInt8}
    (hs : s.utf8ByteSize < power 256 8) (ht : t.utf8ByteSize < power 256 8)
    (h : digestField s ++ xs = digestField t ++ ys) : s = t ∧ xs = ys :=
  digestField_append_inj_of_mod
    (fun hmod => by rwa [Nat.mod_eq_of_lt hs, Nat.mod_eq_of_lt ht] at hmod) h

/-- Texts can be read back one after the other: none of them is spelled by no bytes, so that what is
spelled also tells how many they are. -/
theorem flatMap_digestField_inj {xs ys : List String}
    (hxs : ∀ x ∈ xs, x.utf8ByteSize < power 256 8) (hys : ∀ y ∈ ys, y.utf8ByteSize < power 256 8)
    (h : xs.flatMap digestField = ys.flatMap digestField) : xs = ys := by
  induction xs generalizing ys with
  | nil =>
    cases ys with
    | nil => rfl
    | cons y ys => simp [digestField, wordBytes] at h
  | cons x xs ih =>
    cases ys with
    | nil => simp [digestField, wordBytes] at h
    | cons y ys =>
      rw [List.forall_mem_cons] at hxs hys
      rw [List.flatMap_cons, List.flatMap_cons] at h
      obtain ⟨rfl, hrest⟩ := digestField_append_inj hxs.1 hys.1 h
      rw [ih hxs.2 hys.2 hrest]

theorem MemoryMode.tag_inj {mode mode' : MemoryMode} (h : mode.tag = mode'.tag) : mode = mode' := by
  cases mode <;> cases mode' <;> first | rfl | exact absurd h (by decide)

theorem MemoryMode.tag_lt (mode : MemoryMode) : mode.tag.utf8ByteSize < power 256 8 := by
  cases mode <;> decide

/-- The bytes determine the source, the memory mode and the arguments. -/
theorem digestInput_inj {source source' : String} {mode mode' : MemoryMode}
    {args args' : List String}
    (hsize : source.utf8ByteSize % power 256 8 = source'.utf8ByteSize % power 256 8 →
      source.utf8ByteSize = source'.utf8ByteSize)
    (hargs : ∀ a ∈ args, a.utf8ByteSize < power 256 8)
    (hargs' : ∀ a ∈ args', a.utf8ByteSize < power 256 8)
    (h : digestInput source mode args = digestInput source' mode' args') :
    source = source' ∧ mode = mode' ∧ args = args' := by
  simp only [digestInput, List.append_assoc] at h
  obtain ⟨hsource, h⟩ := digestField_append_inj_of_mod hsize h
  obtain ⟨htag, h⟩ := digestField_append_inj mode.tag_lt mode'.tag_lt h
  obtain ⟨-, h⟩ := List.append_inj h (by simp only [length_wordBytes])
  exact ⟨hsource, MemoryMode.tag_inj htag, flatMap_digestField_inj hargs hargs' h⟩

/-! ### Requests -/

namespace CompileRequest

variable {r r' : CompileRequest}

/-- The bytes that the fingerprint of a request is the digest of. -/
def digested (r : CompileRequest) : List UInt8 := digestInput r.source r.mode r.argv

/-- The texts of a request, and the number of its arguments, fit the words that precede them. -/
structure Fits (r : CompileRequest) : Prop where
  source : r.source.utf8ByteSize < power 256 8
  count : r.argv.length < power 256 8
  argv : ∀ argument ∈ r.argv, argument.utf8ByteSize < power 256 8

theorem fingerprint_eq (r : CompileRequest) : r.fingerprint = ⟨sha256 r.digested⟩ := rfl

theorem eq_of_argv_eq (hargv : r.argv = r'.argv) (hsource : r.source = r'.source)
    (hmode : r.mode = r'.mode) : r = r' := by
  obtain ⟨hargs, hname⟩ := List.append_inj' hargv rfl
  cases r
  cases r'
  simp_all

/-- The bytes determine the request. -/
theorem eq_of_digested_eq (h : r.Fits) (h' : r'.Fits) (heq : r.digested = r'.digested) :
    r = r' := by
  obtain ⟨hsource, hmode, hargv⟩ := digestInput_inj
    (fun hmod => by rwa [Nat.mod_eq_of_lt h.source, Nat.mod_eq_of_lt h'.source] at hmod)
    h.argv h'.argv heq
  exact eq_of_argv_eq hargv hsource hmode

/-- Among requests whose digests do not collide, fingerprints determine the request. -/
theorem eq_of_fingerprint_eq {requests : Set CompileRequest} (hfits : ∀ q ∈ requests, q.Fits)
    (hinj : Set.InjOn sha256 (digested '' requests)) (hr : r ∈ requests) (hr' : r' ∈ requests)
    (heq : r.fingerprint = r'.fingerprint) : r = r' := by
  rw [fingerprint_eq, fingerprint_eq] at heq
  have hdigest : sha256 r.digested = sha256 r'.digested := congrArg Fingerprint.text heq
  have hbytes := hinj (Set.mem_image_of_mem _ hr) (Set.mem_image_of_mem _ hr') hdigest
  exact eq_of_digested_eq (hfits r hr) (hfits r' hr') hbytes

end CompileRequest

end DspHost
