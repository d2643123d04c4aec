import CallbackBridge.Text.Utf8

/-! # Strings that end at a NUL

    Foreign code hands over strings as bytes up to the first NUL, so such a
    string never holds a NUL byte.  The bytes need not be valid UTF-8. -/

namespace CallbackBridge

/-- A foreign string: bytes without NUL. -/
structure CString where
  /-- The bytes before the terminator. -/
  bytes : ByteArray
  /-- The terminator is not part of the string. -/
  noNul : 0 ∉ bytes.data

instance : DecidableEq CString := fun a b =>
  decidable_of_iff (a.bytes.data = b.bytes.data) <| by
    rw [CString.mk.injEq, ByteArray.mk.injEq]

namespace CString

/-- The bytes up to, and without, the first NUL. -/
def ofBytes (bytes : ByteArray) : CString where
  bytes := ⟨(bytes.data.toList.takeWhile (· != 0)).toArray⟩
  noNul := by
    intro h
    have all := List.all_takeWhile (l := bytes.data.toList) (p := (· != 0))
    rw [List.all_eq_true] at all
    exact absurd (all 0 (by simpa using h)) (by decide)

/-- The empty string. -/
def empty : CString := ⟨ByteArray.empty, by simp⟩

instance : Inhabited CString := ⟨empty⟩

/-- The string of `text`, cut at its first NUL. -/
def ofTextCut (text : String) : CString :=
  ofBytes text.toUTF8

/-- The position of the first NUL byte of `text`. -/
def nulPosition? (text : String) : Option Nat :=
  text.toUTF8.data.toList.findIdx? (· == 0)

/-- The string of `text`, unless `text` holds a NUL. -/
def ofText? (text : String) : Option CString :=
  if h : 0 ∈ text.toUTF8.data then none else some ⟨text.toUTF8, h⟩

/-- The text, if the bytes are valid UTF-8. -/
def text? (s : CString) : Option String :=
  Text.Utf8.decode? s.bytes

/-- The text, with U+FFFD for each maximal invalid part. -/
def lossy (s : CString) : String :=
  Text.Utf8.decodeLossy s.bytes

/-- Pointers to some strings, and a null pointer after the last one. -/
def pointers (strings : List CString) : List (Option CString) :=
  strings.map some ++ [none]

/-- The strings that pointers lead to, up to the first null pointer. -/
def ofPointers : List (Option CString) → List CString
  | some s :: rest => s :: ofPointers rest
  | _ => []

/-! ### Laws -/

@[ext] theorem ext {s t : CString} (h : s.bytes = t.bytes) : s = t := by
  cases s; cases t; simp_all

/-- Cutting loses nothing where there is no NUL. -/
theorem bytes_ofBytes {bytes : ByteArray} (h : 0 ∉ bytes.data) :
    (ofBytes bytes).bytes = bytes := by
  have keep : ∀ l : List UInt8, 0 ∉ l → l.takeWhile (· != 0) = l := by
    intro l
    induction l with
    | nil => simp
    | cons b rest ih =>
      intro h0
      rw [List.mem_cons, not_or] at h0
      have hb : (b != 0) = true := by simpa using fun hb : b = 0 => h0.1 hb.symm
      simp only [List.takeWhile_cons, hb, ih h0.2, if_true]
  have h' : 0 ∉ bytes.data.toList := by simpa using h
  simp [ofBytes, keep _ h']

@[simp] theorem ofBytes_bytes (s : CString) : ofBytes s.bytes = s :=
  ext (bytes_ofBytes s.noNul)

/-- A text without NUL crosses unchanged. -/
theorem text?_of_ofText? {text : String} {s : CString} (h : ofText? text = some s) :
    s.text? = some text := by
  unfold ofText? at h
  split at h
  · cases h
  · cases h; exact Text.Utf8.decode?_toUTF8 text

/-- Nothing is read past the strings that were handed over. -/
@[simp] theorem ofPointers_pointers (strings : List CString) :
    ofPointers (pointers strings) = strings := by
  induction strings with
  | nil => rfl
  | cons s rest ih => exact congrArg (s :: ·) ih

theorem ofText?_eq_none_iff {text : String} :
    ofText? text = none ↔ 0 ∈ text.toUTF8.data := by
  unfold ofText?
  split
  · next h => exact iff_of_true rfl h
  · next h => exact iff_of_false (by simp) h

end CString

end CallbackBridge
