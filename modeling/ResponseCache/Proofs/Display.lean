import Mathlib
import ResponseCache.Proofs.Listing
import ResponseCache.Proofs.Ordering
/-!
The text of a key. It is a plain concatenation without any escape, so it tells the key where the separators cannot be mistaken
for parts of it: the first opening bracket behind a space ends the URI, the first equals sign behind that ends the name of an
axis, and a comma in what is left of the axis ends its value.
-/
namespace ResponseCache.Key

/-- The separators of the text of a key do not occur in it where one of them is looked for. -/
structure Legible (k : Key) : Prop where
  uri : ¬[' ', '['] <:+: k.uri.toList
  names : ∀ p ∈ k.variance, '=' ∉ p.1.toList
  values : ∀ p ∈ k.variance, ',' ∉ p.2.toList

/-- A separator cuts a text in one way, if it does not even begin in what stands before it. -/
theorem cut_unique {sep before before' after after' : List Char} (h : ¬sep <:+: before ++ sep.dropLast)
    (h' : ¬sep <:+: before' ++ sep.dropLast) (heq : before ++ (sep ++ after) = before' ++ (sep ++ after')) :
    before = before' ∧ after = after' := by
  -- If one of the parts were longer, the separator behind the other one would lie within it.
  have hlonger {long short rest rest' more : List Char} (hlong : ¬sep <:+: long ++ sep.dropLast)
      (hmore : long = short ++ more) (hrest : sep ++ rest = more ++ (sep ++ rest')) : more = [] := by
    by_contra hne
    have hpositive : 0 < more.length := List.length_pos_of_ne_nil hne
    have hlast : more ++ sep.dropLast <+: more ++ (sep ++ rest') :=
      (List.prefix_append_right_inj more).mpr ((List.dropLast_prefix sep).trans (List.prefix_append sep rest'))
    have hfirst : sep <+: more ++ (sep ++ rest') := hrest ▸ List.prefix_append sep rest
    have hlength : sep.length ≤ (more ++ sep.dropLast).length := by
      rw [List.length_append, List.length_dropLast]
      omega
    have hwithin : sep <+: more ++ sep.dropLast := List.prefix_of_prefix_length_le hfirst hlast hlength
    refine hlong (hwithin.isInfix.trans ⟨short, [], ?_⟩)
    rw [hmore, List.append_nil, List.append_assoc]
  rcases List.append_eq_append_iff.mp heq with ⟨more, hmore, hrest⟩ | ⟨more, hmore, hrest⟩
  · obtain rfl := hlonger h' hmore hrest
    exact ⟨by rw [hmore, List.append_nil], List.append_cancel_left hrest⟩
  · obtain rfl := hlonger h hmore hrest
    exact ⟨by rw [hmore, List.append_nil], (List.append_cancel_left hrest).symm⟩

theorem cut_at_char {c : Char} {before before' after after' : List Char} (h : c ∉ before) (h' : c ∉ before')
    (heq : before ++ c :: after = before' ++ c :: after') : before = before' ∧ after = after' := by
  have hsep {part : List Char} (hpart : c ∉ part) : ¬[c] <:+: part ++ [c].dropLast := by
    rw [List.dropLast_singleton, List.append_nil, List.singleton_infix_iff]
    exact hpart
  exact cut_unique (hsep h) (hsep h') heq

/-- A space at the end of a URI does not make an opening bracket end it too soon. -/
theorem Legible.uri_concat {k : Key} (h : Legible k) : ¬[' ', '['] <:+: k.uri.toList ++ [' ', '['].dropLast := by
  show ¬[' ', '['] <:+: k.uri.toList ++ [' ']
  rw [List.infix_concat_iff, List.suffix_concat_iff]
  rintro ((hnil | ⟨front, hfront, -⟩) | hinfix)
  · exact absurd hnil (by simp)
  · have hlast : '[' = ' ' := by simpa using congrArg List.getLast? hfront
    exact absurd hlast (by decide)
  · exact h.uri hinfix

/-- What stands behind an axis: the axes behind it, each after a comma, and the closing bracket. -/
def tailText : List (String × String) → List Char
  | [] => [']']
  | (axis, value) :: rest => ',' :: (axis.toList ++ '=' :: (value.toList ++ tailText rest))

theorem toList_axes (p : String × String) (rest : List (String × String)) :
    (",".intercalate ((p :: rest).map fun (axis, value) => axis ++ "=" ++ value) ++ "]").toList =
      p.1.toList ++ '=' :: (p.2.toList ++ tailText rest) := by
  induction rest generalizing p with
  | nil => simp [tailText]
  | cons q rest ih =>
    have hrest := ih q
    simp only [List.map_cons, String.intercalate_cons_cons, String.toList_append] at hrest ⊢
    simp only [List.append_assoc] at hrest ⊢
    rw [hrest]
    simp [tailText]

theorem toList_display (k : Key) : k.display.toList = k.uri.toList ++ match k.variance with
    | [] => []
    | p :: rest => [' ', '['] ++ (p.1.toList ++ '=' :: (p.2.toList ++ tailText rest)) := by
  unfold display
  cases hvariance : k.variance with
  | nil => simp
  | cons p rest =>
    have haxes := toList_axes p rest
    simp only [List.isEmpty_cons, Bool.false_eq_true, if_false, String.toList_append] at haxes ⊢
    simp only [List.append_assoc, haxes]
    rfl

/-- The last axis has no comma behind its name. -/
theorem value_ne_of_comma {value value' : List Char} (h : ',' ∉ value) (after : List Char) :
    value ++ [']'] ≠ value' ++ ',' :: after := by
  intro heq
  have hmem : ',' ∈ value ++ [']'] := heq ▸ List.mem_append_right _ List.mem_cons_self
  rcases List.mem_append.mp hmem with hvalue | hbracket
  · exact h hvalue
  · exact absurd (List.mem_singleton.mp hbracket) (by decide)

/-- A value and the axes behind it are told by their text, also when names contain commas, and values equals signs or
brackets. -/
theorem tail_unique {rest rest' : List (String × String)} {value value' : String} (hvalue : ',' ∉ value.toList)
    (hvalue' : ',' ∉ value'.toList) (hrest : ∀ p ∈ rest, '=' ∉ p.1.toList ∧ ',' ∉ p.2.toList)
    (hrest' : ∀ p ∈ rest', '=' ∉ p.1.toList ∧ ',' ∉ p.2.toList)
    (h : value.toList ++ tailText rest = value'.toList ++ tailText rest') : value = value' ∧ rest = rest' := by
  induction rest generalizing value value' rest' with
  | nil =>
    cases rest' with
    | nil => exact ⟨String.toList_injective (List.append_cancel_right h), rfl⟩
    | cons p rest' => exact absurd h (value_ne_of_comma hvalue _)
  | cons p rest ih =>
    cases rest' with
    | nil => exact absurd h.symm (value_ne_of_comma hvalue' _)
    | cons q rest' =>
      -- The comma ends both values, then the equals sign both names, and the rest is the same argument again.
      obtain ⟨hname, hvalueOf⟩ := hrest p List.mem_cons_self
      obtain ⟨hname', hvalueOf'⟩ := hrest' q List.mem_cons_self
      obtain ⟨hsame, haxis⟩ := cut_at_char hvalue hvalue' h
      obtain ⟨hnames, htail⟩ := cut_at_char hname hname' haxis
      obtain ⟨hvalues, hsameRest⟩ := ih hvalueOf hvalueOf' (fun r hr => hrest r (List.mem_cons_of_mem p hr))
        (fun r hr => hrest' r (List.mem_cons_of_mem q hr)) htail
      exact ⟨String.toList_injective hsame,
        List.cons_eq_cons.mpr ⟨Prod.ext (String.toList_injective hnames) hvalues, hsameRest⟩⟩

/-- The URI and the axes of a legible key are told by its text. -/
theorem Legible.parts_eq {a b : Key} (ha : Legible a) (hb : Legible b) (h : a.display = b.display) :
    a.uri = b.uri ∧ a.variance = b.variance := by
  have htext : a.display.toList = b.display.toList := congrArg String.toList h
  have haxes := fun p hp => And.intro (ha.names p hp) (ha.values p hp)
  have haxes' := fun p hp => And.intro (hb.names p hp) (hb.values p hp)
  -- Without axes the text is the URI, which contains no opening bracket behind a space.
  have hbare {k l : Key} {after : List Char} (hk : Legible k) (heq : k.uri.toList = l.uri.toList ++ ([' ', '['] ++ after)) :
      False := hk.uri ⟨l.uri.toList, after, by rw [heq, List.append_assoc]⟩
  rw [toList_display, toList_display] at htext
  cases hvariance : a.variance with
  | nil =>
    cases hvariance' : b.variance with
    | nil =>
      simp only [hvariance, hvariance', List.append_nil] at htext
      exact ⟨String.toList_injective htext, rfl⟩
    | cons q rest' =>
      simp only [hvariance, hvariance', List.append_nil] at htext
      exact (hbare ha htext).elim
  | cons p rest =>
    cases hvariance' : b.variance with
    | nil =>
      simp only [hvariance, hvariance', List.append_nil] at htext
      exact (hbare hb htext.symm).elim
    | cons q rest' =>
      simp only [hvariance, hvariance'] at htext haxes haxes'
      obtain ⟨huri, htail⟩ := cut_unique ha.uri_concat hb.uri_concat htext
      obtain ⟨hnames, hvalues⟩ := cut_at_char (haxes p List.mem_cons_self).1 (haxes' q List.mem_cons_self).1 htail
      obtain ⟨hvalue, hrest⟩ := tail_unique (haxes p List.mem_cons_self).2 (haxes' q List.mem_cons_self).2
        (fun r hr => haxes r (List.mem_cons_of_mem p hr)) (fun r hr => haxes' r (List.mem_cons_of_mem q hr)) hvalues
      exact ⟨String.toList_injective huri,
        List.cons_eq_cons.mpr ⟨Prod.ext (String.toList_injective hnames) hvalue, hrest⟩⟩

/-- The text of a key identifies it. Of two keys whose URIs contain no space with an opening bracket behind it, whose names of
axes contain no equals sign and whose values of axes contain no comma, the texts are the same just if the keys are equal; so
these may have any number of axes, empty names and values, spaces at the end of the URI, commas in names, and equals signs
or brackets in values. -/
theorem display_identifies_key {a b : Key} (ha : Obtained a) (hb : Obtained b) (hlegible : Legible a) (hlegible' : Legible b) :
    a.display = b.display ↔ (a == b) = true := by
  rw [beq_iff_eq]
  constructor
  · exact fun h => (ha.eq_iff hb).mpr (hlegible.parts_eq hlegible' h)
  · exact congrArg display

/-- A key with an empty name and a name with a comma in it, built in two ways. -/
theorem display_of_axes_in_either_order : ∃ a b : Key,
    a = ((ofUri "/a ").withVariance "B,c" "2]").withVariance "" "=" ∧ b = ofParts "/a " [("", "="), ("b,c", "2]")] ∧
    Obtained a ∧ Obtained b ∧ Legible a ∧ Legible b ∧ a.display = "/a  [==,b,c=2]]" ∧ a.display = b.display ∧
    (a == b) = true := by
  obtain ⟨a, ha⟩ : ∃ a, a = ((ofUri "/a ").withVariance "B,c" "2]").withVariance "" "=" := ⟨_, rfl⟩
  obtain ⟨b, hb⟩ : ∃ b, b = ofParts "/a " [("", "="), ("b,c", "2]")] := ⟨_, rfl⟩
  have hlegible {k : Key} (huri : k.uri = "/a ") (hvariance : k.variance = [("", "="), ("b,c", "2]")]) : Legible k := by
    refine ⟨?_, ?_, ?_⟩
    · rw [huri]
      decide
    · rw [hvariance]
      decide
    · rw [hvariance]
      decide
  have hobtained : Obtained a := ha ▸ ((Obtained.ofUri "/a ").withVariance "B,c" "2]").withVariance "" "="
  have hobtained' : Obtained b := hb ▸ obtained_ofParts "/a " _
  have hleft : Legible a := hlegible (by rw [ha]; rfl) (by rw [ha]; cbv)
  have hright : Legible b := hlegible (by rw [hb]; rfl) (by rw [hb]; cbv)
  have htext : a.display = "/a  [==,b,c=2]]" := by rw [ha]; cbv
  have hsame : a.display = b.display := htext.trans (by rw [hb]; cbv)
  exact ⟨a, b, ha, hb, hobtained, hobtained', hleft, hright, htext, hsame,
    (display_identifies_key hobtained hobtained' hleft hright).mp hsame⟩

end ResponseCache.Key
