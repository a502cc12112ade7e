import Mathlib.Data.String.Basic
import ResponseCache.Key

namespace ResponseCache.Text

theorem toList_loop (bytes : ByteArray) (i : Nat) (done : Bytes) :
    ByteArray.toList.loop bytes i done = done.reverse ++ bytes.data.toList.drop i := by
  rw [ByteArray.toList.loop]
  split
  · rename_i hi
    have hget : bytes.get! i = bytes.data[i] := by simp [ByteArray.get!, hi]
    have hdrop : bytes.data.toList.drop i = bytes.data[i] :: bytes.data.toList.drop (i + 1) :=
      List.drop_eq_getElem_cons (by exact hi)
    calc ByteArray.toList.loop bytes (i + 1) (bytes.get! i :: done)
        = (bytes.get! i :: done).reverse ++ bytes.data.toList.drop (i + 1) := toList_loop bytes (i + 1) _
      _ = done.reverse ++ bytes.data.toList.drop i := by
        rw [hget, hdrop, List.reverse_cons, List.append_assoc, List.singleton_append]
  · rename_i hi
    have hdrop : bytes.data.toList.drop i = [] := List.drop_eq_nil_of_le (Nat.not_lt.mp hi)
    rw [hdrop, List.append_nil]
termination_by bytes.size - i

theorem toBytes_ofList (cs : List Char) : toBytes (String.ofList cs) = cs.flatMap String.utf8EncodeChar := by
  calc toBytes (String.ofList cs)
      = ByteArray.toList.loop cs.utf8Encode 0 [] := by
        rw [toBytes, String.toUTF8_eq_toByteArray, String.toByteArray_ofList, ByteArray.toList]
    _ = cs.utf8Encode.data.toList := by rw [toList_loop, List.reverse_nil, List.nil_append, List.drop_zero]
    _ = cs.flatMap String.utf8EncodeChar := by rw [List.utf8Encode, List.toList_data_toByteArray]

theorem toBytes_eq (s : String) : toBytes s = s.toList.flatMap String.utf8EncodeChar := by
  rw [← toBytes_ofList, String.ofList_toList]

theorem ofNat_lt_iff {m n : Nat} (hm : m < 256) (hn : n < 256) : UInt8.ofNat m < UInt8.ofNat n ↔ m < n := by
  rw [UInt8.lt_iff_toNat_lt, UInt8.toNat_ofNat', UInt8.toNat_ofNat', Nat.mod_eq_of_lt hm, Nat.mod_eq_of_lt hn]

theorem ofNat_eq_iff {m n : Nat} (hm : m < 256) (hn : n < 256) : UInt8.ofNat m = UInt8.ofNat n ↔ m = n := by
  rw [← UInt8.toNat_inj, UInt8.toNat_ofNat', UInt8.toNat_ofNat', Nat.mod_eq_of_lt hm, Nat.mod_eq_of_lt hn]

/-- A smaller character is written by smaller bytes, whatever follows: a longer encoding begins with a larger byte, and
encodings of one length compare like the digits of the number. -/
theorem encode_lt {c d : Char} (h : c < d) (xs ys : Bytes) :
    String.utf8EncodeChar c ++ xs < String.utf8EncodeChar d ++ ys := by
  have hlt : c.val.toNat < d.val.toNat := h
  have hbound (e : Char) : e.val.toNat < 1114112 := by
    rcases e.valid with hlow | ⟨-, hhigh⟩
    · exact Nat.lt_trans hlow (by decide)
    · exact hhigh
  have hc := hbound c
  have hd := hbound d
  generalize hm : c.val.toNat = m at hlt hc
  generalize hn : d.val.toNat = n at hlt hd
  -- Digits by digits of six bits, so that each is the remainder of what is left of the number.
  have htwo (k : Nat) : k / 4096 = k / 64 / 64 := by omega
  have hthree (k : Nat) : k / 262144 = k / 64 / 64 / 64 := by omega
  unfold String.utf8EncodeChar
  simp only [hm, hn, htwo, hthree]
  repeat' split
  all_goals
    simp (disch := omega) only [List.cons_append, List.nil_append, List.cons_lt_cons_iff, ofNat_lt_iff, ofNat_eq_iff]
    omega

theorem encodeAll_lt {cs ds : List Char} (h : cs < ds) :
    cs.flatMap String.utf8EncodeChar < ds.flatMap String.utf8EncodeChar := by
  induction cs generalizing ds with
  | nil =>
    obtain ⟨d, rest, rfl⟩ : ∃ d rest, ds = d :: rest := by
      cases ds with
      | nil => exact absurd h (List.lt_irrefl [])
      | cons d rest => exact ⟨d, rest, rfl⟩
    have hne : String.utf8EncodeChar d ≠ [] := String.utf8EncodeChar_ne_nil
    rw [List.flatMap_nil, List.flatMap_cons]
    cases hbytes : String.utf8EncodeChar d with
    | nil => exact absurd hbytes hne
    | cons b more => exact List.nil_lt_cons b _
  | cons c cs ih =>
    cases ds with
    | nil => exact absurd h (List.not_lt_nil _)
    | cons d ds =>
      rw [List.flatMap_cons, List.flatMap_cons]
      rcases List.cons_lt_cons_iff.mp h with hlt | ⟨rfl, hrest⟩
      · exact encode_lt hlt _ _
      · exact List.append_left_lt (ih hrest)

/-- Texts and their bytes are in the same order. -/
theorem toBytes_lt_iff (s t : String) : toBytes s < toBytes t ↔ s < t := by
  have hmono {u v : String} (h : u < v) : toBytes u < toBytes v := by
    rw [toBytes_eq, toBytes_eq]
    exact encodeAll_lt (String.lt_iff_toList_lt.mp h)
  refine ⟨fun h => ?_, hmono⟩
  -- One of two texts is the smaller one, or they are the same.
  rcases lt_trichotomy s t with hlt | rfl | hgt
  · exact hlt
  · exact absurd h (List.lt_irrefl _)
  · exact absurd (hmono hgt) (List.lt_asymm h)

end ResponseCache.Text

namespace ResponseCache.Key

/-- The key of a URI that does not vary carries the hash of the characters as they are encoded. -/
theorem ofUri_eq (uri : String) :
    ofUri uri = ⟨uri, [], (uri.toList.flatMap String.utf8EncodeChar).foldl hashByte hashMultiplier⟩ := by
  have hseed : (0 : UInt64) ^^^ hashMultiplier = hashMultiplier := by decide
  rw [← Text.toBytes_eq, ← hseed, ofUri, ofParts, normalize, List.map_nil, List.mergeSort_nil, dedup]
  rfl

-- With the hash worked out, runs about these keys can be evaluated.
theorem ofUri_root : ofUri "/" = ⟨"/", [], 5061318609660819817⟩ := ofUri_eq "/"

theorem ofUri_a : ofUri "/a" = ⟨"/a", [], 3316603903883359613⟩ := ofUri_eq "/a"

theorem ofUri_b : ofUri "/b" = ⟨"/b", [], 9188384910447362066⟩ := ofUri_eq "/b"

end ResponseCache.Key
