import ResponseCache.Proofs.Axes
import ResponseCache.Proofs.Document

namespace ResponseCache.Key
open Table (find find_eq_none_iff find_eq_some_iff)

/-- A document lists a URI and pairs: an object that has both under their names, whatever else is in it and wherever they
stand, or an array of the two. No pairs at all may be left out. -/
inductive Lists : Json → String → List (String × String) → Prop
  | object {members : List (Option String × Json)} {fields : List (String × Json)} {uri : String}
      {pairs : List (String × String)} (hfields : Json.fields? members = some fields)
      (huri : Json.field? "uri" fields = some (some (.ofString uri)))
      (hpairs : Json.field? "variance" fields = some (some (.array (pairs.map pairToJson)))) :
      Lists (.object members) uri pairs
  | objectOfUri {members : List (Option String × Json)} {fields : List (String × Json)} {uri : String}
      (hfields : Json.fields? members = some fields)
      (huri : Json.field? "uri" fields = some (some (.ofString uri))) (hpairs : Json.field? "variance" fields = some none) :
      Lists (.object members) uri []
  | array (uri : String) (pairs : List (String × String)) :
      Lists (.array [.ofString uri, .array (pairs.map pairToJson)]) uri pairs
  | arrayOfUri (uri : String) : Lists (.array [.ofString uri]) uri []

theorem pairOfJson?_eq_some_iff (j : Json) (p : String × String) : pairOfJson? j = some p ↔ j = pairToJson p := by
  obtain ⟨axis, value⟩ := p
  constructor
  · intro h
    unfold pairOfJson? at h
    split at h
    · rename_i first second
      simp only [Option.bind_eq_bind, Option.bind_eq_some_iff, Json.asString?_eq_some_iff] at h
      obtain ⟨_, rfl, _, rfl, heq⟩ := h
      cases heq
      rfl
    · exact absurd h (by simp)
  · rintro rfl
    rfl

theorem varianceOfJson?_eq_some_iff (j : Json) (pairs : List (String × String)) :
    varianceOfJson? j = some pairs ↔ j = .array (pairs.map pairToJson) := by
  have hitems (items : List Json) : ∀ pairs : List (String × String),
      items.mapM pairOfJson? = some pairs ↔ items = pairs.map pairToJson := by
    induction items with
    | nil => intro pairs; cases pairs <;> simp
    | cons item rest ih =>
      intro pairs
      cases pairs <;> simp [Option.bind_eq_some_iff, ih, pairOfJson?_eq_some_iff]
  cases j <;> simp [varianceOfJson?, hitems]

/-- A key is read just from the documents that list a URI and pairs, and it is the one made from them. -/
theorem ofJson?_eq_some_iff (j : Json) (k : Key) :
    ofJson? j = some k ↔ ∃ uri pairs, Lists j uri pairs ∧ k = ofParts uri pairs := by
  constructor
  · intro h
    unfold ofJson? at h
    -- An object, an array of a URI alone, an array of two, and everything else.
    split at h
    · simp only [Option.bind_eq_bind, Option.bind_eq_some_iff, Json.required?, Option.join_eq_some_iff,
        Json.asString?_eq_some_iff] at h
      obtain ⟨fields, hfields, _, huri, uri, rfl, found, hfound, hk⟩ := h
      cases found with
      | none => exact ⟨uri, [], .objectOfUri hfields huri hfound, (Option.some.inj hk).symm⟩
      | some listed =>
        obtain ⟨pairs, hpairs, hk⟩ := Option.bind_eq_some_iff.mp hk
        rw [(varianceOfJson?_eq_some_iff listed pairs).mp hpairs] at hfound
        exact ⟨uri, pairs, .object hfields huri hfound, (Option.some.inj hk).symm⟩
    · simp only [Option.bind_eq_bind, Option.bind_eq_some_iff, Json.asString?_eq_some_iff] at h
      obtain ⟨uri, rfl, hk⟩ := h
      exact ⟨uri, [], .arrayOfUri uri, (Option.some.inj hk).symm⟩
    · simp only [Option.bind_eq_bind, Option.bind_eq_some_iff, Json.asString?_eq_some_iff,
        varianceOfJson?_eq_some_iff] at h
      obtain ⟨uri, rfl, pairs, rfl, hk⟩ := h
      exact ⟨uri, pairs, .array uri pairs, (Option.some.inj hk).symm⟩
    · exact absurd h (by simp)
  · rintro ⟨uri, pairs, hlists, rfl⟩
    have hpairs : varianceOfJson? (.array (pairs.map pairToJson)) = some pairs :=
      (varianceOfJson?_eq_some_iff _ pairs).mpr rfl
    cases hlists with
    | object hfields huri hvariance =>
      simp only [ofJson?, hfields, Json.required?, huri, hvariance, Option.bind_eq_bind, Option.bind_some, Option.join_some,
        Json.asString?, Json.ofString, hpairs]
      rfl
    | objectOfUri hfields huri hvariance =>
      simp only [ofJson?, hfields, Json.required?, huri, hvariance, Option.bind_eq_bind, Option.bind_some, Option.join_some,
        Json.asString?, Json.ofString]
      rfl
    | array =>
      simp only [ofJson?, Option.bind_eq_bind, Option.bind_some, Json.asString?, Json.ofString, hpairs]
      rfl
    | arrayOfUri => rfl

theorem plain_toJson (k : Key) : Json.Plain k.toJson := by
  have hpair (p : String × String) : Json.Plain (pairToJson p) := by
    refine .array fun item hitem => ?_
    rcases List.mem_pair.mp hitem with rfl | rfl <;> exact .ofString _
  refine .ofFields fun field hfield => ?_
  rcases List.mem_cons.mp hfield with rfl | hfield
  · exact .ofString _
  · split at hfield
    · exact absurd hfield List.not_mem_nil
    · obtain rfl := List.mem_singleton.mp hfield
      refine .array fun item hitem => ?_
      obtain ⟨p, -, rfl⟩ := List.mem_map.mp hitem
      exact hpair p

/-- What is written for a key lists its own parts. -/
theorem lists_toJson (k : Key) : Lists k.toJson k.uri k.variance := by
  unfold toJson
  split
  · rename_i hempty
    rw [List.isEmpty_iff.mp hempty]
    exact .objectOfUri (Json.fields?_ofFields _) rfl rfl
  · exact .object (Json.fields?_ofFields _) rfl rfl

/-- A key that can be had is made from its own parts. -/
theorem Obtained.ofParts_eq {k : Key} (h : Obtained k) : Key.ofParts k.uri k.variance = k := by
  have hvariance : normalize k.variance = k.variance := h.normal.normalize_eq
  have hhash := h.hash_eq
  obtain ⟨uri, variance, hash⟩ := k
  simp only [Key.ofParts, hvariance, Key.mk.injEq, true_and]
  exact hhash.symm

theorem Obtained.parse?_render {k : Key} (h : Obtained k) : parse? k.toJson.render = some k := by
  rw [parse?, (plain_toJson k).parse?_render]
  exact (ofJson?_eq_some_iff _ _).mpr ⟨k.uri, k.variance, lists_toJson k, h.ofParts_eq.symm⟩

theorem obtained_ofParts (uri : String) (pairs : List (String × String)) : Obtained (ofParts uri pairs) :=
  .ofJson ((ofJson?_eq_some_iff _ _).mpr ⟨uri, pairs, .array uri pairs, rfl⟩)

end ResponseCache.Key
