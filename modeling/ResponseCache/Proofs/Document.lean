import Mathlib.Data.List.Basic
import Mathlib.Data.List.TakeWhile
import ResponseCache.Json.Printer
import ResponseCache.Json.Reader
import ResponseCache.Json.Strict
/-!
Documents that are written and read back. The reader undoes the printer piece by piece: what an escape stands for, where a
literal and a number end, and which bracket closes what. A document whose strings are text and whose numbers are natural
ones is read back as it was.
-/
namespace ResponseCache.Json

/-- A piece that stands for one character of a text, whatever follows it. -/
structure Piece.StandsFor (p : Piece) (c : Char) : Prop where
  read : ∀ cs, pieces? (escape c ++ cs) = (pieces? cs).map fun (ps, rest) => (p :: ps, rest)
  join : ∀ ps, joinPieces (p :: ps) = (joinPieces ps).map (c :: ·)

theorem pieces?_short {e c : Char} (he : e ≠ 'u') (h : escaped? e = some c) (cs : List Char) :
    pieces? ('\\' :: e :: cs) = (pieces? cs).map fun (ps, rest) => (.char c :: ps, rest) := by
  rw [pieces?.eq_4 e cs fun _ _ _ _ _ hu _ => he hu, h]
  cases pieces? cs <;> rfl

theorem pieces?_plain {c : Char} (hquote : c ≠ '"') (hslash : c ≠ '\\') (h : ¬c.toNat < 0x20) (cs : List Char) :
    pieces? (c :: cs) = (pieces? cs).map fun (ps, rest) => (.char c :: ps, rest) := by
  rw [pieces?.eq_5 c cs hquote (fun _ _ _ _ _ hc _ => hslash hc) (fun _ _ hc _ => hslash hc)]
  simp only [h, hslash, decide_false, Bool.or_false, Bool.false_eq_true, if_false]
  cases pieces? cs <;> rfl

theorem hexValue?_hexDigit {n : Nat} (h : n < 16) : hexValue? (hexDigit n) = some n := by
  have hall : ∀ m < 16, hexValue? (hexDigit m) = some m := by decide
  exact hall n h

theorem pieces?_control {n : Nat} (h : n < 0x20) (cs : List Char) :
    pieces? ('\\' :: 'u' :: '0' :: '0' :: hexDigit (n / 16) :: hexDigit (n % 16) :: cs) =
      (pieces? cs).map fun (ps, rest) => (.unit n :: ps, rest) := by
  have hhigh : hexValue? (hexDigit (n / 16)) = some (n / 16) := hexValue?_hexDigit (by omega)
  have hlow : hexValue? (hexDigit (n % 16)) = some (n % 16) := hexValue?_hexDigit (by omega)
  have hzero : hexValue? '0' = some 0 := rfl
  have hvalue : ((0 * 16 + 0) * 16 + n / 16) * 16 + n % 16 = n := by omega
  rw [pieces?.eq_3, hhigh, hlow, hzero]
  cases pieces? cs with
  | none => rfl
  | some read => 
    show some _ = some _
    rw [hvalue]

theorem joinPieces_control {n : Nat} (h : n < 0x20) (ps : List Piece) :
    joinPieces (.unit n :: ps) = (joinPieces ps).map (Char.ofNat n :: ·) := by
  have hhigh : (decide (0xd800 ≤ n) && decide (n < 0xdc00)) = false := by simp; omega
  have hlow : (decide (0xdc00 ≤ n) && decide (n < 0xe000)) = false := by simp; omega
  have hboth : (decide (0xd800 ≤ n) && decide (n < 0xe000)) = false := by simp; omega
  match ps with
  | .unit low :: ps => rw [joinPieces.eq_3, hhigh, hlow, if_neg Bool.false_ne_true, if_neg Bool.false_ne_true]
  | [] | .char c :: ps =>
    rw [joinPieces.eq_4 _ _ (by simp), hboth, if_neg Bool.false_ne_true]

theorem standsFor_short (e : Char) {c : Char} (he : e ≠ 'u') (hescape : escape c = ['\\', e]) (h : escaped? e = some c) :
    (Piece.char c).StandsFor c where
  read cs := by
    rw [hescape]
    exact pieces?_short he h cs
  join ps := joinPieces.eq_2 c ps

/-- Every character comes back as one piece. -/
theorem exists_standsFor (c : Char) : ∃ p : Piece, p.StandsFor c := by
  by_cases hshort : c ∈ ['"', '\\', '\x08', '\x0c', '\n', '\r', '\t']
  · refine ⟨.char c, ?_⟩
    simp only [List.mem_cons, List.not_mem_nil, or_false] at hshort
    rcases hshort with rfl | rfl | rfl | rfl | rfl | rfl | rfl
    · exact standsFor_short '"' (by decide) (by decide) (by decide)
    · exact standsFor_short '\\' (by decide) (by decide) (by decide)
    · exact standsFor_short 'b' (by decide) (by decide) (by decide)
    · exact standsFor_short 'f' (by decide) (by decide) (by decide)
    · exact standsFor_short 'n' (by decide) (by decide) (by decide)
    · exact standsFor_short 'r' (by decide) (by decide) (by decide)
    · exact standsFor_short 't' (by decide) (by decide) (by decide)
  · simp only [List.mem_cons, List.not_mem_nil, or_false, not_or] at hshort
    obtain ⟨hquote, hslash, hb, hf, hn, hr, ht⟩ := hshort
    by_cases hcontrol : c.toNat < 0x20
    · have hescape : escape c = ['\\', 'u', '0', '0', hexDigit (c.toNat / 16), hexDigit (c.toNat % 16)] := by
        simp only [escape, hquote, hslash, hb, hf, hn, hr, ht, hcontrol, if_true, if_false]
      refine ⟨.unit c.toNat, fun cs => ?_, fun ps => ?_⟩
      · rw [hescape]
        exact pieces?_control hcontrol cs
      · rw [joinPieces_control hcontrol, Char.ofNat_toNat]
    · have hescape : escape c = [c] := by
        simp only [escape, hquote, hslash, hb, hf, hn, hr, ht, hcontrol, if_false]
      refine ⟨.char c, fun cs => ?_, fun ps => joinPieces.eq_2 c ps⟩
      rw [hescape]
      exact pieces?_plain hquote hslash hcontrol cs

/-- A literal is read up to its closing quote, as the text that it was written for. -/
theorem literal?_quoted (cs rest : List Char) :
    literal? (cs.flatMap escape ++ '"' :: rest) = some (some (String.ofList cs), rest) := by
  have hpieces : ∃ ps, pieces? (cs.flatMap escape ++ '"' :: rest) = some (ps, rest) ∧ joinPieces ps = some cs := by
    induction cs with
    | nil => exact ⟨[], pieces?.eq_2 rest, rfl⟩
    | cons c cs ih =>
      obtain ⟨ps, hread, hjoin⟩ := ih
      obtain ⟨p, hp⟩ := exists_standsFor c
      refine ⟨p :: ps, ?_, ?_⟩
      · rw [List.flatMap_cons, List.append_assoc, hp.read, hread]
        rfl
      · rw [hp.join, hjoin]
        rfl
  obtain ⟨ps, hread, hjoin⟩ := hpieces
  simp only [literal?, hread, hjoin, Option.map_some]

/-- What may stand behind a value: nothing, or what goes on with or closes what the value is in. -/
def Closed (rest : List Char) : Prop := ∀ c, rest.head? = some c → c = ',' ∨ c = ']' ∨ c = '\x7d'

theorem closed_nil : Closed [] := fun _ h => absurd h (by simp)

theorem closed_printItems (items : List Json) (rest : List Char) : Closed (printItems items ++ rest) := by
  cases items with
  | nil => exact fun c h => Or.inr (Or.inl (Option.some.inj h).symm)
  | cons item items => exact fun c h => Or.inl (Option.some.inj h).symm

theorem closed_printMembers (members : List (Option String × Json)) (rest : List Char) :
    Closed (printMembers members ++ rest) := by
  cases members with
  | nil => exact fun c h => Or.inr (Or.inr (Option.some.inj h).symm)
  | cons m members => exact fun c h => Or.inl (Option.some.inj h).symm

theorem takeWhile_isDigit {ds rest : List Char} (hds : ∀ c ∈ ds, c.isDigit = true) (hrest : Closed rest) :
    (ds ++ rest).takeWhile Char.isDigit = ds := by
  rw [List.takeWhile_append_of_pos hds]
  cases rest with
  | nil => simp
  | cons c rest =>
    have hc : c.isDigit = false := by rcases hrest c rfl with rfl | rfl | rfl <;> rfl
    simp [hc]

theorem fraction?_closed {rest : List Char} (h : Closed rest) : fraction? rest = some ([], rest) := by
  cases rest with
  | nil => rfl
  | cons c rest => rcases h c rfl with rfl | rfl | rfl <;> rfl

theorem exponent?_closed {rest : List Char} (h : Closed rest) : exponent? rest = some ([], rest) := by
  cases rest with
  | nil => rfl
  | cons c rest => rcases h c rfl with rfl | rfl | rfl <;> rfl

/-- A number other than zero does not begin with a zero. -/
theorem exists_toDigits_eq_cons {n : Nat} (h : 0 < n) : ∃ d ds, Nat.toDigits 10 n = d :: ds ∧ d ≠ '0' := by
  induction n using Nat.strongRecOn with
  | ind n ih =>
    rw [Nat.toDigits_eq_if (by decide)]
    by_cases hsmall : n < 10
    · have hdigit : ∀ m < 10, 0 < m → m.digitChar ≠ '0' := by decide
      exact ⟨_, [], if_pos hsmall, hdigit n hsmall h⟩
    · obtain ⟨d, ds, hds, hd⟩ := ih (n / 10) (by omega) (by omega)
      exact ⟨d, ds ++ [(n % 10).digitChar], by rw [if_neg hsmall, hds, List.cons_append], hd⟩

theorem whole?_toDigits (n : Nat) {rest : List Char} (h : Closed rest) :
    whole? (Nat.toDigits 10 n ++ rest) = some (Nat.toDigits 10 n, rest) := by
  rcases Nat.eq_zero_or_pos n with rfl | hpos
  · cases rest with
    | nil => rfl
    | cons c rest => rcases h c rfl with rfl | rfl | rfl <;> rfl
  · obtain ⟨d, ds, hds, hd⟩ := exists_toDigits_eq_cons hpos
    have htake : (Nat.toDigits 10 n ++ rest).takeWhile Char.isDigit = Nat.toDigits 10 n :=
      takeWhile_isDigit (fun c hc => Nat.isDigit_of_mem_toDigits (by decide) (by decide) hc) h
    rw [hds] at htake ⊢
    rw [List.cons_append, whole?.eq_2 _ fun _ hcons => hd (List.cons.inj hcons).1, digits?, ← List.cons_append, htake]
    simp

theorem number?_toDigits (n : Nat) {rest : List Char} (h : Closed rest) :
    number? (Nat.toDigits 10 n ++ rest) = some (Nat.toDigits 10 n, rest) := by
  have hsign : ∀ tail, Nat.toDigits 10 n ++ rest ≠ '-' :: tail := by
    obtain ⟨d, ds, hds⟩ := List.exists_cons_of_ne_nil (Nat.toDigits_ne_nil (n := n) (b := 10))
    intro tail htail
    rw [hds, List.cons_append] at htail
    have hd : '-' ∈ Nat.toDigits 10 n := by
      rw [hds, (List.cons.inj htail).1]
      exact List.mem_cons_self
    exact absurd (Nat.isDigit_of_mem_toDigits (by decide) (by decide) hd) (by decide)
  unfold number?
  split
  rename_i sign cs hsplit
  split at hsplit
  · rename_i tail htail
    exact absurd htail (hsign tail)
  · cases hsplit
    simp only [whole?_toDigits n h, fraction?_closed h, exponent?_closed h, Option.bind_eq_bind, Option.bind_some,
      List.nil_append, List.append_nil]
    rfl

/-- Documents that are written as they are: every string in them is text, and every number a natural one. -/
inductive Plain : Json → Prop
  | null : Plain null
  | bool (b : Bool) : Plain (bool b)
  | ofNat (n : Nat) : Plain (ofNat n)
  | ofString (s : String) : Plain (ofString s)
  | array {items : List Json} (h : ∀ item ∈ items, Plain item) : Plain (array items)
  | object {members : List (Option String × Json)} (hname : ∀ m ∈ members, m.1.isSome = true)
      (hvalue : ∀ m ∈ members, Plain m.2) : Plain (object members)

theorem isBlank_of_isDigit {d : Char} (h : d.isDigit = true) : isBlank d = false := by
  rw [isBlank, Bool.or_eq_false_iff, Bool.or_eq_false_iff, Bool.or_eq_false_iff]
  refine ⟨⟨⟨?_, ?_⟩, ?_⟩, ?_⟩ <;> refine decide_eq_false ?_ <;> rintro rfl <;> exact absurd h (by decide)

/-- A value starts with a character that is neither blank nor closes an array. -/
theorem exists_print_eq_cons {j : Json} (h : Plain j) : ∃ c cs, j.print = c :: cs ∧ isBlank c = false ∧ c ≠ ']' := by
  cases h with
  | null => exact ⟨_, _, rfl, by decide, by decide⟩
  | bool b => cases b <;> exact ⟨_, _, rfl, by decide, by decide⟩
  | ofString s => exact ⟨_, _, rfl, by decide, by decide⟩
  | ofNat n =>
    obtain ⟨d, ds, hds⟩ := List.exists_cons_of_ne_nil (Nat.toDigits_ne_nil (n := n) (b := 10))
    have hd : d.isDigit = true := Nat.isDigit_of_mem_toDigits (by decide) (by decide) (hds ▸ List.mem_cons_self)
    refine ⟨d, ds, hds, isBlank_of_isDigit hd, ?_⟩
    rintro rfl
    exact absurd hd (by decide)
  | @array items h => cases items <;> exact ⟨_, _, rfl, by decide, by decide⟩
  | @object members hname hvalue => cases members <;> exact ⟨_, _, rfl, by decide, by decide⟩

theorem skipBlanks_cons {c : Char} (h : isBlank c = false) (cs : List Char) : skipBlanks (c :: cs) = c :: cs :=
  List.dropWhile_cons_of_neg (by simp [h])

/-- The value is read back from its text, whatever closes behind it. -/
def ReadsBack (j : Json) : Prop :=
  ∀ fuel rest, j.print.length ≤ fuel → Closed rest → value? fuel (j.print ++ rest) = some (j, rest)

/-- What begins with a digit is read as a number. -/
theorem value?_digit {d : Char} (h : d.isDigit = true) (fuel : Nat) (cs : List Char) :
    value? (fuel + 1) (d :: cs) = (number? (d :: cs)).map fun (lexeme, rest) => (number lexeme, rest) := by
  rw [value?, skipBlanks_cons (isBlank_of_isDigit h)]
  split
  case h_7 => rfl
  all_goals
    rename_i hcons
    rw [(List.cons.inj hcons).1] at h
    exact absurd h (by decide)

theorem readsBack_ofNat (n : Nat) : ReadsBack (ofNat n) := by
  intro fuel rest hfuel hrest
  obtain ⟨d, ds, hds⟩ := List.exists_cons_of_ne_nil (Nat.toDigits_ne_nil (n := n) (b := 10))
  have hd : d.isDigit = true := Nat.isDigit_of_mem_toDigits (by decide) (by decide) (hds ▸ List.mem_cons_self)
  have hprint : (ofNat n).print = d :: ds := hds
  have hnumber := number?_toDigits n hrest
  rw [hprint] at hfuel ⊢
  rw [hds] at hnumber
  obtain ⟨fuel, rfl⟩ : ∃ k, fuel = k + 1 := Nat.exists_eq_add_one.mpr (Nat.lt_of_lt_of_le (by simp) hfuel)
  rw [List.cons_append, value?_digit hd, ← List.cons_append, hnumber, ofNat, hds]
  rfl

theorem readsBack_ofString (s : String) : ReadsBack (ofString s) := by
  intro fuel rest hfuel hrest
  have hprint : (ofString s).print ++ rest = '"' :: (s.toList.flatMap escape ++ '"' :: rest) := by
    simp [ofString, print, literal, quoted]
  cases fuel with
  | zero => simp [ofString, print, literal, quoted] at hfuel
  | succ fuel =>
    rw [hprint, value?, skipBlanks_cons (by decide)]
    simp only [literal?_quoted, Option.map_some, String.ofList_toList]
    rfl

/-- Items that are read back one by one are read back up to the bracket behind them. -/
theorem items?_print {item : Json} {items : List Json} (h : ∀ j ∈ item :: items, ReadsBack j) : ∀ fuel rest,
    item.print.length + (printItems items).length ≤ fuel →
    items? fuel (item.print ++ (printItems items ++ rest)) = some (item :: items, rest) := by
  induction items generalizing item with
  | nil =>
    intro fuel rest hfuel
    cases fuel with
    | zero => simp [printItems] at hfuel
    | succ fuel =>
      have hitem := h item List.mem_cons_self fuel _ (by simpa [printItems] using hfuel) (closed_printItems [] rest)
      rw [items?, hitem]
      rfl
  | cons next items ih =>
    intro fuel rest hfuel
    have hlength : (printItems (next :: items)).length = next.print.length + (printItems items).length + 1 := by
      simp [printItems]
    have hsplit : printItems (next :: items) ++ rest = ',' :: (next.print ++ (printItems items ++ rest)) := by
      simp [printItems]
    cases fuel with
    | zero => omega
    | succ fuel =>
      have hitem := h item List.mem_cons_self fuel _ (by omega) (closed_printItems (next :: items) rest)
      have hnext := ih (fun j hj => h j (List.mem_cons_of_mem _ hj)) fuel rest (by omega)
      rw [items?, hitem]
      simp only [Option.bind_eq_bind, Option.bind_some, hsplit, skipBlanks_cons (show isBlank ',' = false from rfl), hnext,
        Option.map_some]

theorem literal_append (name : String) (rest : List Char) :
    literal (some name) ++ rest = '"' :: (name.toList.flatMap escape ++ '"' :: rest) := by
  simp [literal, quoted]

/-- One member is read, and what follows it decides whether there is another one. -/
theorem members?_member {m : Option String × Json} (hname : m.1.isSome = true) (hvalue : ReadsBack m.2) {fuel : Nat}
    {tail : List Char} (hfuel : m.2.print.length ≤ fuel) (htail : Closed tail) (rest : List Char) :
    (skipBlanks tail = ',' :: rest → members? (fuel + 1) (literal m.1 ++ ':' :: (m.2.print ++ tail)) =
      (members? fuel rest).map fun (members, rest) => (m :: members, rest)) ∧
    (skipBlanks tail = '\x7d' :: rest → members? (fuel + 1) (literal m.1 ++ ':' :: (m.2.print ++ tail)) =
      some ([m], rest)) := by
  obtain ⟨name, value⟩ := m
  obtain ⟨text, rfl⟩ := Option.isSome_iff_exists.mp hname
  rw [literal_append, members?, skipBlanks_cons (by decide)]
  simp only [literal?_quoted, Option.bind_eq_bind, Option.bind_some, skipBlanks_cons (show isBlank ':' = false from rfl),
    hvalue fuel tail hfuel htail, String.ofList_toList]
  constructor
  · intro hnext
    rw [hnext]
    rfl
  · intro hnext
    rw [hnext]
    rfl

/-- Members whose values are read back one by one are read back up to the brace behind them. -/
theorem members?_print {m : Option String × Json} {members : List (Option String × Json)}
    (hname : ∀ m' ∈ m :: members, m'.1.isSome = true) (hvalue : ∀ m' ∈ m :: members, ReadsBack m'.2) : ∀ fuel rest,
    m.2.print.length + (printMembers members).length ≤ fuel →
    members? fuel (literal m.1 ++ ':' :: (m.2.print ++ (printMembers members ++ rest))) = some (m :: members, rest) := by
  induction members generalizing m with
  | nil =>
    intro fuel rest hfuel
    cases fuel with
    | zero => simp [printMembers] at hfuel
    | succ fuel =>
      have hlast : skipBlanks (printMembers [] ++ rest) = '\x7d' :: rest := skipBlanks_cons (by decide) rest
      exact (members?_member (hname m List.mem_cons_self) (hvalue m List.mem_cons_self)
        (by simpa [printMembers] using hfuel) (closed_printMembers [] rest) rest).2 hlast
  | cons next members ih =>
    intro fuel rest hfuel
    have hlength : next.2.print.length + (printMembers members).length < (printMembers (next :: members)).length := by
      simp [printMembers]
      omega
    have hsplit : printMembers (next :: members) ++ rest =
        ',' :: (literal next.1 ++ ':' :: (next.2.print ++ (printMembers members ++ rest))) := by
      simp [printMembers]
    cases fuel with
    | zero => omega
    | succ fuel =>
      have hnext := ih (fun m' hm' => hname m' (List.mem_cons_of_mem _ hm'))
        (fun m' hm' => hvalue m' (List.mem_cons_of_mem _ hm')) fuel rest (by omega)
      have hfirst : m.2.print.length ≤ fuel := by omega
      have hmore := (members?_member (hname m List.mem_cons_self) (hvalue m List.mem_cons_self) hfirst
        (closed_printMembers (next :: members) rest) _).1 (by rw [hsplit, skipBlanks_cons (by decide)])
      rw [hmore, hnext, Option.map_some]

theorem readsBack_array {items : List Json} (hplain : ∀ item ∈ items, Plain item) (h : ∀ item ∈ items, ReadsBack item) :
    ReadsBack (array items) := by
  intro fuel rest hfuel _
  cases fuel with
  | zero => cases items <;> simp [print] at hfuel
  | succ fuel =>
    cases items with
    | nil => rfl
    | cons item items =>
      obtain ⟨c, cs, hcons, hblank, hclose⟩ := exists_print_eq_cons (hplain item List.mem_cons_self)
      have hitems := items?_print h fuel rest (by simpa [print] using hfuel)
      have hprint : (array (item :: items)).print ++ rest = '[' :: (item.print ++ (printItems items ++ rest)) := by
        simp [print]
      rw [hprint, value?, skipBlanks_cons (by decide)]
      rw [hcons, List.cons_append] at hitems ⊢
      simp only [skipBlanks_cons hblank]
      split
      · rename_i hbracket
        exact absurd (List.cons.inj hbracket).1 hclose
      · rw [hitems]
        rfl

theorem readsBack_object {members : List (Option String × Json)} (hname : ∀ m ∈ members, m.1.isSome = true)
    (h : ∀ m ∈ members, ReadsBack m.2) : ReadsBack (object members) := by
  intro fuel rest hfuel _
  cases fuel with
  | zero => cases members <;> simp [print] at hfuel
  | succ fuel =>
    cases members with
    | nil => rfl
    | cons m members =>
      have hmembers := members?_print hname h fuel rest (by simp [print] at hfuel; omega)
      obtain ⟨name, value⟩ := m
      have hprint : (object ((name, value) :: members)).print ++ rest =
          '\x7b' :: (literal name ++ ':' :: (value.print ++ (printMembers members ++ rest))) := by
        simp [print]
      have hquote : skipBlanks (literal name ++ ':' :: (value.print ++ (printMembers members ++ rest))) =
          literal name ++ ':' :: (value.print ++ (printMembers members ++ rest)) := skipBlanks_cons (by decide) _
      rw [hprint, value?, skipBlanks_cons (by decide)]
      simp only [hquote]
      split
      · rename_i hbrace
        exact absurd (List.cons.inj hbrace).1 (by decide)
      · rw [hmembers]
        rfl

theorem Plain.readsBack {j : Json} (h : Plain j) : ReadsBack j := by
  induction h with
  | null =>
    intro fuel rest hfuel _
    cases fuel with
    | zero => simp [print] at hfuel
    | succ fuel => rfl
  | bool b =>
    intro fuel rest hfuel _
    cases fuel with
    | zero => cases b <;> simp [print] at hfuel
    | succ fuel => cases b <;> rfl
  | ofNat n => exact readsBack_ofNat n
  | ofString s => exact readsBack_ofString s
  | array h ih => exact readsBack_array h ih
  | object hname _ ih => exact readsBack_object hname ih

/-- What is written is read back. -/
theorem Plain.parse?_render {j : Json} (h : Plain j) : parse? j.render = some j := by
  have hread := h.readsBack (2 * j.print.length + 1) [] (by omega) closed_nil
  rw [List.append_nil] at hread
  rw [render, parse?, String.toList_ofList, hread]
  rfl

theorem Plain.ofFields {fields : List (String × Json)} (h : ∀ f ∈ fields, Plain f.2) : Plain (ofFields fields) := by
  refine .object (fun m hm => ?_) (fun m hm => ?_) <;> obtain ⟨f, hf, rfl⟩ := List.mem_map.mp hm
  · rfl
  · exact h f hf

theorem asString?_eq_some_iff (j : Json) (s : String) : j.asString? = some s ↔ j = ofString s := by
  cases j <;> simp [asString?, ofString]

@[simp]
theorem asString?_ofString (s : String) : (ofString s).asString? = some s := rfl

theorem asNat?_ofNat {n bound : Nat} (h : n < bound) : (ofNat n).asNat? bound = some n := by
  have hdigits : (Nat.toDigits 10 n).all Char.isDigit = true :=
    List.all_eq_true.mpr fun c hc => Nat.isDigit_of_mem_toDigits (by decide) (by decide) hc
  have hvalue : Nat.ofDigitChars 10 (Nat.toDigits 10 n) 0 = n := Nat.ofDigitChars_toDigits (by decide) (by decide)
  simp only [ofNat, asNat?, hdigits, hvalue, h, decide_true, Bool.and_self, if_true]

theorem lt_of_asNat? {j : Json} {n bound : Nat} (h : j.asNat? bound = some n) : n < bound := by
  cases j with
  | number ds =>
    simp only [asNat?] at h
    split at h
    · rename_i hvalid
      obtain rfl := Option.some.inj h
      exact of_decide_eq_true (Bool.and_eq_true_iff.mp hvalid).2
    · exact absurd h (by simp)
  | _ => exact absurd h (by simp [asNat?])

theorem fields?_ofFields (fields : List (String × Json)) :
    fields? (fields.map fun (name, value) => (some name, value)) = some fields := by
  induction fields with
  | nil => rfl
  | cons f rest ih =>
    simp only [fields?] at ih
    simp [fields?, ih]

/-- Among fields with different names each one is found. -/
theorem field?_eq_some {fields : List (String × Json)} (h : (fields.map (·.1)).Nodup) {name : String} {value : Json}
    (hmem : (name, value) ∈ fields) : field? name fields = some (some value) := by
  have hfilter : (fields.filter fun field => field.1 = name) = [(name, value)] := by
    induction fields with
    | nil => exact absurd hmem List.not_mem_nil
    | cons f rest ih =>
      rw [List.map_cons, List.nodup_cons] at h
      rcases List.mem_cons.mp hmem with rfl | hmem
      · have hrest : (rest.filter fun field => field.1 = name) = [] := by
          refine List.filter_eq_nil_iff.mpr fun field hfield heq => h.1 ?_
          exact List.mem_map.mpr ⟨field, hfield, of_decide_eq_true heq⟩
        rw [List.filter_cons_of_pos (by simp), hrest]
      · have hne : f.1 ≠ name := fun heq => h.1 (heq ▸ List.mem_map_of_mem (f := (·.1)) hmem)
        rw [List.filter_cons_of_neg (by simpa using hne), ih h.2 hmem]
  rw [field?, hfilter]

theorem le_ofDigitChars (ds : List Char) : ∀ n, n ≤ Nat.ofDigitChars 10 ds n := by
  induction ds with
  | nil => exact fun n => Nat.le_refl n
  | cons d ds ih =>
    intro n
    rw [Nat.ofDigitChars_cons]
    exact Nat.le_trans (by omega) (ih _)

/-- A number that fits 64 bits is its own significand. -/
theorem significand_eq (ds : List Char) : ∀ n, Nat.ofDigitChars 10 ds n < UInt64.size →
    significand n ds = (Nat.ofDigitChars 10 ds n, 0) := by
  induction ds with
  | nil => exact fun n _ => rfl
  | cons d ds ih =>
    intro n h
    rw [Nat.ofDigitChars_cons, Nat.mul_comm] at h ⊢
    have hnext : n * 10 + (d.toNat - '0'.toNat) < UInt64.size := Nat.lt_of_le_of_lt (le_ofDigitChars ds _) h
    rw [significand, if_pos hnext, ih _ h]

theorem nearest_le (n : Nat) : nearest n ≤ 2 * n := by
  rcases Nat.eq_zero_or_pos n with rfl | hpos
  · decide
  · have hunit : 2 ^ (Nat.log2 n - 52) ≤ n :=
      Nat.le_trans (Nat.pow_le_pow_right (by decide) (Nat.sub_le _ _)) (Nat.log2_self_le (Nat.ne_of_gt hpos))
    have hlow : n / 2 ^ (Nat.log2 n - 52) * 2 ^ (Nat.log2 n - 52) ≤ n := Nat.div_mul_le_self n _
    simp only [nearest]
    split
    · rw [Nat.add_mul, Nat.one_mul]
      exact Nat.le_trans (Nat.add_le_add hlow hunit) (by omega)
    · exact Nat.le_trans hlow (by omega)

theorem inRange_toDigits {n : Nat} (h : n < UInt64.size) : inRange (Nat.toDigits 10 n) = true := by
  have hdigit : ∀ c ∈ Nat.toDigits 10 n, c.isDigit = true :=
    fun c hc => Nat.isDigit_of_mem_toDigits (by decide) (by decide) hc
  have hne {c : Char} (hc : c.isDigit = false) : ∀ d ∈ Nat.toDigits 10 n, d ≠ c := by
    rintro d hd rfl
    rw [hdigit d hd] at hc
    exact absurd hc (by decide)
  -- The text has no sign, no fraction and no exponent: all of it is the whole part.
  have hmantissa : (Nat.toDigits 10 n).takeWhile (fun c => c ≠ 'e' && c ≠ 'E') = Nat.toDigits 10 n := by
    refine List.takeWhile_eq_self_iff.mpr fun c hc => ?_
    simp [hne (show 'e'.isDigit = false from rfl) c hc, hne (show 'E'.isDigit = false from rfl) c hc]
  have hsign : (Nat.toDigits 10 n).filter (· ≠ '-') = Nat.toDigits 10 n :=
    List.filter_eq_self.mpr fun c hc => by simp [hne (show '-'.isDigit = false from rfl) c hc]
  have hwhole : (Nat.toDigits 10 n).takeWhile Char.isDigit = Nat.toDigits 10 n := List.takeWhile_eq_self_iff.mpr hdigit
  have hfraction : (Nat.toDigits 10 n).dropWhile (· ≠ '.') = [] :=
    List.dropWhile_eq_nil_iff.mpr fun c hc => by simp [hne (show '.'.isDigit = false from rfl) c hc]
  have hexponent : (Nat.toDigits 10 n).drop ((Nat.toDigits 10 n).length + 1) = [] :=
    List.drop_of_length_le (Nat.le_succ _)
  have hvalue : Nat.ofDigitChars 10 (Nat.toDigits 10 n) 0 = n := Nat.ofDigitChars_toDigits (by decide) (by decide)
  have hsignificand : significand 0 (Nat.toDigits 10 n) = (n, 0) := by
    rw [significand_eq _ _ (by rw [hvalue]; exact h), hvalue]
  -- Each rounding at most doubles the number.
  have hproduct : nearest (nearest n * nearest (Nat.pow 10 0)) < Nat.pow 2 1024 := by
    have hone : nearest (Nat.pow 10 0) = 1 := by decide
    rw [hone, Nat.mul_one]
    have hnearest : nearest (nearest n) < 2 ^ 66 := by
      have hfirst := nearest_le n
      have hsecond := nearest_le (nearest n)
      have hsize : UInt64.size = 18446744073709551616 := rfl
      omega
    have hpower : ∀ k, 66 ≤ k → 2 ^ 66 ≤ Nat.pow 2 k := fun k hk => Nat.pow_le_pow_right (by decide) hk
    exact Nat.lt_of_lt_of_le hnearest (hpower 1024 (by decide))
  unfold inRange
  simp only [hmantissa, hexponent, hsign, hwhole, hfraction, hsignificand, List.filter_nil, significand]
  show (decide (n = 0) || decide ((0 : Int) < 0) || (decide ((0 : Int) ≤ 308) &&
    decide (nearest (nearest n * nearest (Nat.pow 10 0)) < Nat.pow 2 1024))) = true
  rw [decide_eq_true hproduct, Bool.and_true, Bool.or_eq_true]
  exact Or.inr (by decide)

theorem strict_ofFields {depth : Nat} {fields : List (String × Json)} (h : ∀ f ∈ fields, strict depth f.2 = true) :
    strict (depth + 1) (ofFields fields) = true := by
  rw [ofFields, strict]
  induction fields with
  | nil => rfl
  | cons f fields ih =>
    rw [List.map_cons, strictMembers, h f List.mem_cons_self, ih fun g hg => h g (List.mem_cons_of_mem _ hg)]
    rfl

end ResponseCache.Json
