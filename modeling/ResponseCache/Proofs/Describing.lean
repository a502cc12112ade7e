import ResponseCache.Event.Json
import ResponseCache.Proofs.Document
import ResponseCache.Proofs.Moment

namespace ResponseCache.Event

/-- The size that an event tells. -/
def sizeBytes? : Event → Option Nat
  | entryCreated _ _ _ sizeBytes _ _ | entryReplaced _ _ _ sizeBytes _ | alternativeAttached _ _ _ sizeBytes _ => some sizeBytes
  | alternativeCleared .. | entryEvicted .. | revalidationRejected .. => none

/-- An event whose fields hold what they can hold: a size of 64 bits, and a moment that exists. -/
structure Sound (e : Event) : Prop where
  size : ∀ n, e.sizeBytes? = some n → n < UInt64.size
  moment : e.timestamp.Exists

@[simp]
theorem identityOfJson?_toJson (i : Identity) : Identity.ofJson? i.toJson = some i := by
  have hraw : (Json.ofNat i.raw.toNat).asNat? identityLimit = some i.raw.toNat := Json.asNat?_ofNat i.raw.toNat_lt
  rw [Identity.ofJson?, Identity.toJson, hraw, Option.map_some, Nat.toUInt64_eq, UInt64.ofNat_toNat]

@[simp]
theorem labelOfJson?_ofOption (label : Option String) : labelOfJson? (.ofOption .ofString label) = some label := by
  cases label <;> rfl

/-- The fields of an event, with a text for its moment. -/
def fieldsAt (stamp : String) (e : Event) : List (String × Json) :=
  e.fields.map fun (name, value) => (name, if name = "timestamp" then .ofString stamp else value)

theorem fieldsAt_render (e : Event) : e.fieldsAt (e.timestamp.render "Z") = e.fields := by
  cases e <;> rfl

theorem fieldNames?_name (e : Event) (stamp : String) : fieldNames? e.name = some ((e.fieldsAt stamp).map (·.1)) := by
  cases e <;> rfl

theorem nodup_names (e : Event) : ("type" :: e.fields.map (·.1)).Nodup := by
  cases e <;> simp [fields]

/-- A document describes an event: an object that names its kind and has its fields, among others and in any order, or an
array of the name and the fields. Its moment may be written in any way that is read as that moment, and no alternative may be
left out. -/
inductive Describes (e : Event) : Json → Prop
  | object {members : List (Option String × Json)} {fields : List (String × Json)} {stamp : String}
      (hfields : Json.fields? members = some fields) (hstamp : Timestamp.parse? stamp = some e.timestamp)
      (hname : Json.field? "type" fields = some (some (.ofString e.name)))
      (hlisted : ∀ f ∈ e.fieldsAt stamp, Json.field? f.1 fields = some (some f.2) ∨
        f = ("alternative", .null) ∧ Json.field? f.1 fields = some none) : Describes e (.object members)
  | array {stamp : String} (hstamp : Timestamp.parse? stamp = some e.timestamp) :
      Describes e (.array (.ofString e.name :: (e.fieldsAt stamp).map (·.2)))

/-- The values of the fields make up the event. -/
theorem ofValues?_fieldsAt {e : Event} (h : e.Sound) {stamp : String} (hstamp : Timestamp.parse? stamp = some e.timestamp) :
    ofValues? e.name ((e.fieldsAt stamp).map (·.2)) = some e := by
  have hsize (n : Nat) (hn : e.sizeBytes? = some n) : sizeOfJson? (.ofNat n) = some n := Json.asNat?_ofNat (h.size n hn)
  have hmoment : timestampOfJson? (.ofString stamp) = some e.timestamp := hstamp
  cases e with
  | entryCreated key identity contentType sizeBytes alternative t =>
    simp [fieldsAt, fields, ofValues?, name, hsize sizeBytes rfl, hmoment, timestamp]
  | entryReplaced key previous identity sizeBytes t =>
    simp [fieldsAt, fields, ofValues?, name, hsize sizeBytes rfl, hmoment, timestamp]
  | alternativeAttached key identity label sizeBytes t =>
    simp [fieldsAt, fields, ofValues?, name, hsize sizeBytes rfl, hmoment, timestamp]
  | alternativeCleared key identity t => simp [fieldsAt, fields, ofValues?, name, hmoment, timestamp]
  | entryEvicted key identity t => simp [fieldsAt, fields, ofValues?, name, hmoment, timestamp]
  | revalidationRejected key reason t => simp [fieldsAt, fields, ofValues?, name, hmoment, timestamp]

theorem mapM_valueOf? {fields listed : List (String × Json)} (h : ∀ f ∈ listed, valueOf? fields f.1 = some f.2) :
    (listed.map (·.1)).mapM (valueOf? fields) = some (listed.map (·.2)) := by
  induction listed with
  | nil => rfl
  | cons f rest ih =>
    have hrest := ih fun g hg => h g (List.mem_cons_of_mem _ hg)
    rw [List.map_cons, List.mapM_cons, h f List.mem_cons_self, hrest]
    rfl

theorem Describes.ofJson?_eq {e : Event} {json : Json} (h : Describes e json) (he : e.Sound) : ofJson? json = some e := by
  cases h with
  | @object members fields stamp hfields hstamp hname hlisted =>
    have hvalues : ∀ f ∈ e.fieldsAt stamp, valueOf? fields f.1 = some f.2 := by
      intro f hf
      rcases hlisted f hf with hfound | ⟨rfl, hfound⟩ <;> rw [valueOf?, hfound] <;> rfl
    have hrequired : Json.required? "type" fields = some (.ofString e.name) := by rw [Json.required?, hname]; rfl
    simp only [ofJson?, hfields, hrequired, Json.asString?_ofString, fieldNames?_name e stamp, mapM_valueOf? hvalues,
      Option.bind_eq_bind, Option.bind_some, ofValues?_fieldsAt he hstamp]
  | array hstamp => exact ofValues?_fieldsAt he hstamp

theorem Describes.parse?_eq {e : Event} {json : Json} (h : Describes e json) (he : e.Sound) {text : String}
    (htext : Json.parse? text = some json) (hheld : json.strict 127 = true) : parse? text = some e := by
  simp only [parse?, htext, Option.bind_eq_bind, Option.bind_some, hheld, if_true, h.ofJson?_eq he]

/-- The values that the fields of events have: nothing, a text, or a number of 64 bits. -/
inductive Scalar : Json → Prop
  | null : Scalar .null
  | ofString (s : String) : Scalar (.ofString s)
  | ofNat {n : Nat} (h : n < UInt64.size) : Scalar (.ofNat n)

theorem Scalar.plain {j : Json} (h : Scalar j) : Json.Plain j := by
  cases h with
  | null => exact .null
  | ofString s => exact .ofString s
  | ofNat h => exact .ofNat _

theorem Scalar.strict {j : Json} (h : Scalar j) (depth : Nat) : j.strict depth = true := by
  cases h with
  | null => rfl
  | ofString s => rfl
  | ofNat h => exact Json.inRange_toDigits h

theorem scalar_identity (i : Identity) : Scalar i.toJson := .ofNat i.raw.toNat_lt

theorem scalar_label (label : Option String) : Scalar (.ofOption .ofString label) := by
  cases label with
  | none => exact .null
  | some label => exact .ofString label

theorem scalar_fields {e : Event} (h : e.Sound) : ∀ f ∈ ("type", .ofString e.name) :: e.fields, Scalar f.2 := by
  have hsize (n : Nat) (hn : e.sizeBytes? = some n) : Scalar (.ofNat n) := .ofNat (h.size n hn)
  have hstamp (t : Timestamp) : Scalar (timestampToJson t) := .ofString _
  cases e with
  | entryCreated key identity contentType sizeBytes alternative t =>
    simp [fields, Scalar.ofString, scalar_identity, scalar_label, hsize sizeBytes rfl, hstamp]
  | entryReplaced key previous identity sizeBytes t =>
    simp [fields, Scalar.ofString, scalar_identity, hsize sizeBytes rfl, hstamp]
  | alternativeAttached key identity label sizeBytes t =>
    simp [fields, Scalar.ofString, scalar_identity, hsize sizeBytes rfl, hstamp]
  | alternativeCleared key identity t => simp [fields, Scalar.ofString, scalar_identity, hstamp]
  | entryEvicted key identity t => simp [fields, Scalar.ofString, scalar_identity, hstamp]
  | revalidationRejected key reason t => simp [fields, Scalar.ofString, hstamp]

/-- What is written for an event describes it, if its moment is read as it was. -/
theorem describes_toJson {e : Event} (h : Timestamp.parse? (e.timestamp.render "Z") = some e.timestamp) :
    Describes e e.toJson := by
  have hnodup : ((("type", .ofString e.name) :: e.fields).map (·.1)).Nodup := nodup_names e
  refine .object (Json.fields?_ofFields _) h (Json.field?_eq_some hnodup List.mem_cons_self) fun f hf => Or.inl ?_
  rw [fieldsAt_render] at hf
  exact Json.field?_eq_some hnodup (List.mem_cons_of_mem _ hf)

theorem Sound.parse?_render {e : Event} (h : e.Sound) (hlow : 0 ≤ e.timestamp.year) (hhigh : e.timestamp.year ≤ 9999) :
    parse? e.toJson.render = some e := by
  have hsame : e.timestamp.ahead 0 = e.timestamp := by rw [Timestamp.ahead, Int.add_zero]
  have hstamp : Timestamp.parse? (e.timestamp.render "Z") = some e.timestamp := by
    have hzone : Timestamp.Marks "Z".toList 0 := Timestamp.marks_universal
    have hread := Timestamp.parse?_render h.moment hzone (hsame.symm ▸ hlow) (hsame.symm ▸ hhigh)
    rwa [hsame] at hread
  have hplain : Json.Plain e.toJson := .ofFields fun f hf => (scalar_fields h f hf).plain
  exact (describes_toJson hstamp).parse?_eq h hplain.parse?_render
    (Json.strict_ofFields fun f hf => (scalar_fields h f hf).strict 126)

theorem reads_ofValues? (name : String) (values : List Json) : Reads Sound (ofValues? name values) := by
  have hmoment {j : Json} {t : Timestamp} (ht : timestampOfJson? j = some t) : t.Exists := by
    obtain ⟨text, -, htext⟩ := Option.bind_eq_some_iff.mp ht
    exact Timestamp.reads_parse? text t htext
  have hsized {n : Nat} {j : Json} (hn : sizeOfJson? j = some n) : ∀ m, some n = some m → m < UInt64.size := by
    rintro m ⟨⟩
    exact Json.lt_of_asNat? hn
  unfold ofValues?
  split
  · exact .ite (.bind fun _ _ => .bind fun _ _ => .bind fun _ _ => .bind fun _ hsize => .bind fun _ _ => .bind fun _ ht =>
      .some ⟨hsized hsize, hmoment ht⟩) .none
  · refine .ite ?replaced (.ite ?attached .none)
    all_goals
      exact .bind fun _ _ => .bind fun _ _ => .bind fun _ _ => .bind fun _ hsize => .bind fun _ ht =>
        .some ⟨hsized hsize, hmoment ht⟩
  · refine .ite ?cleared (.ite ?evicted (.ite ?rejected .none))
    all_goals
      exact .bind fun _ _ => .bind fun _ _ => .bind fun _ ht => .some ⟨fun _ hn => (nomatch hn), hmoment ht⟩
  · exact .none

/-- An event that is read is sound. -/
theorem reads_parse? (text : String) : Reads Sound (parse? text) := by
  refine .bind fun j _ => .ite ?_ .none
  unfold ofJson?
  split
  · exact .bind fun _ _ => .bind fun _ _ => .bind fun _ _ => .bind fun _ _ => .bind fun _ _ => reads_ofValues? _ _
  · exact .bind fun _ _ => reads_ofValues? _ _
  · exact .none

/-- Events survive being written and read, field by field. What is written for an event, whose size has 64 bits and whose
moment exists and is in a year of four digits, is read as that event. A document that describes an event, with the fields in
any order or in an array, with other members among them and with the moment in whatever form is read as it, is read as that
event; the moment may stand in the time of any offset of less than a day. Whatever text is read as an event in such a year,
what is written for that event is read as it, and no other text is written for what is read. -/
theorem events_survive_json :
    (∀ e : Event, e.Sound → 0 ≤ e.timestamp.year → e.timestamp.year ≤ 9999 → parse? e.toJson.render = some e) ∧
    (∀ text json (e : Event), Json.parse? text = some json → json.strict 127 = true → e.Sound → Describes e json →
      parse? text = some e) ∧
    (∀ (t : Timestamp) (minutes : Int), t.Exists → minutes.natAbs < 1440 → 0 ≤ (t.ahead (60 * minutes)).year →
      (t.ahead (60 * minutes)).year ≤ 9999 →
      Timestamp.parse? ((t.ahead (60 * minutes)).render (Timestamp.zoneText minutes)) = some t) ∧
    (∀ text e, parse? text = some e → 0 ≤ e.timestamp.year → e.timestamp.year ≤ 9999 →
      parse? e.toJson.render = some e ∧
      ∀ e', parse? e.toJson.render = some e' → e'.toJson.render = e.toJson.render) := by
  refine ⟨fun e he hlow hhigh => he.parse?_render hlow hhigh, fun text json e htext hheld he h => h.parse?_eq he htext hheld,
    fun t minutes ht hminutes hlow hhigh => Timestamp.parse?_render ht (Timestamp.marks_zoneText hminutes) hlow hhigh,
    fun text e h hlow hhigh => ?_⟩
  have hround := (reads_parse? text e h).parse?_render hlow hhigh
  refine ⟨hround, fun e' he' => ?_⟩
  rw [Option.some.inj (he'.symm.trans hround)]

end ResponseCache.Event
