import IdVeil.Proofs.Codec.Blank
import IdVeil.Proofs.Field.Runs

/-!
Labels and what they keep apart. The text of a field may start with the label of another kind for
two reasons. Either that label is longer and goes on into the token: then too little is left of the
token to be read. Or it is shorter: then what the first label has more stands in front of the
token, and is overlooked exactly when the codec reads it as nothing (`decodeField_other_iff`). Only
separators are read as nothing, so kinds are kept apart as long as no separator has an underscore
(`decodeField_other_of_no_underscore`).
-/
namespace IdVeil

theorem append_eq_append_cases {a b c d : String} (h : a ++ b = c ++ d) :
    (∃ gap, a = c ++ gap ∧ d = gap ++ b) ∨ ∃ gap, gap ≠ "" ∧ c = a ++ gap ∧ b = gap ++ d := by
  have same := congrArg String.toList h
  rw [String.toList_append, String.toList_append] at same
  obtain ⟨more, long, rest⟩ | ⟨more, long, rest⟩ := List.append_eq_append_iff.mp same
  · by_cases none : more = []
    · refine .inl ⟨"", ?_, ?_⟩
      all_goals apply String.toList_inj.mp
      · simp [long, none]
      · simp [rest, none]
    · refine .inr ⟨.ofList more, ?_, ?_, ?_⟩
      · intro empty
        simp [none] at empty
      all_goals apply String.toList_inj.mp
      · simp [long]
      · simp [rest]
  · refine .inl ⟨.ofList more, ?_, ?_⟩
    all_goals apply String.toList_inj.mp
    · simp [long]
    · simp [rest]

namespace Field

variable {marker text token : String}

theorem tokenOf_eq_ok_iff : tokenOf marker text = .ok token ↔ text = label marker ++ token := by
  rw [tokenOf]
  split
  · rename_i starts
    obtain ⟨rest, split⟩ := starts
    rw [← split, List.drop_left, Except.ok.injEq, ← String.toList_inj, ← String.toList_inj,
      String.toList_ofList, String.toList_append, ← split, List.append_cancel_left_eq]
  · rename_i other
    constructor
    · intro h
      contradiction
    · rintro rfl
      rw [String.toList_append] at other
      exact absurd (List.prefix_append _ _) other

/-- What is left of a label once another is taken off ends as the label does. -/
theorem underscore_mem_of_gap {first second gap : String} (differ : first ≠ second)
    (shorter : label first = label second ++ gap) : '_' ∈ gap.toList := by
  have same : first.toList ++ ['_'] = second.toList ++ ['_'] ++ gap.toList := by
    simpa [label] using congrArg String.toList shorter
  obtain none | ⟨front, last, split⟩ := List.eq_nil_or_concat gap.toList
  · rw [none, List.append_nil, List.append_cancel_right_eq] at same
    exact absurd (String.toList_inj.mp same) differ
  · rw [split, List.concat_eq_append, ← List.append_assoc] at same
    obtain ⟨_, ends⟩ := List.append_inj' same rfl
    obtain ⟨rfl, _⟩ := List.cons.inj ends
    simp [split]

end Field

namespace IdMask

variable {layout : Layout} {m : IdMask layout} {ring : KeyRing} {envelope : Bytes}

theorem freshRead_congr {text text' : String} (same : m.codec.decode text = m.codec.decode text') :
    m.freshRead ring text = m.freshRead ring text' := by
  rw [freshRead, freshRead, accept, accept, same]

theorem decode_of_freshUnmask {text : String} {id : layout.Id}
    (read : m.freshUnmask ring text = .ok id) :
    ∃ other, m.codec.decode text = .ok other ∧ other.length = m.engine.envelopeLength := by
  obtain ⟨_, bytes, read⟩ := freshUnmask_eq_ok_iff.mp read
  obtain ⟨_, key, entropy, _, he, hv, same⟩ := freshRead_eq_ok_iff.mp read
  exact ⟨_, Codec.decode_eq_ok_iff.mpr same, Engine.length_envelope he hv⟩

variable (whole : envelope.length = m.engine.envelopeLength)
include whole

theorem envelope_ne_nil : envelope ≠ [] := by
  apply List.length_pos_iff.mp
  rw [whole, Engine.envelopeLength]
  omega

theorem freshUnmask_append_iff (front : String) {id : layout.Id} :
    m.freshUnmask ring (front ++ m.codec.encode envelope) = .ok id ↔
      m.codec.decode front = .ok [] ∧
        (front ++ m.codec.encode envelope).length ≤ maxTokenLength ∧
        m.freshUnmask ring (m.codec.encode envelope) = .ok id := by
  have overlooked {other : Bytes} (length : other.length = m.engine.envelopeLength) :=
    Codec.decode_append_encode_iff (c := m.codec) (envelope_ne_nil whole) (length.trans whole.symm)
      front
  constructor
  · intro read
    obtain ⟨other, decoded, length⟩ := decode_of_freshUnmask read
    obtain ⟨blank, rfl⟩ := (overlooked length).mp decoded
    obtain ⟨short, bytes, read⟩ := freshUnmask_eq_ok_iff.mp read
    refine ⟨blank, short, freshUnmask_eq_ok_iff.mpr ⟨?_, bytes, ?_⟩⟩
    · rw [String.length_append] at short
      omega
    · rw [← read]
      exact freshRead_congr ((Codec.decode_encode _).trans decoded.symm)
  · rintro ⟨blank, short, read⟩
    obtain ⟨_, bytes, read⟩ := freshUnmask_eq_ok_iff.mp read
    refine freshUnmask_eq_ok_iff.mpr ⟨short, bytes, ?_⟩
    rw [← read]
    exact freshRead_congr (((overlooked whole).mpr ⟨blank, rfl⟩).trans (Codec.decode_encode _).symm)

theorem freshUnmask_rest_ne {front rest : String} (cut : front ≠ "")
    (split : m.codec.encode envelope = front ++ rest) (id : layout.Id) :
    m.freshUnmask ring rest ≠ .ok id := by
  intro read
  obtain ⟨other, decoded, length⟩ := decode_of_freshUnmask read
  exact Codec.decode_rest_ne (envelope_ne_nil whole) (length.trans whole.symm) cut split decoded

end IdMask

namespace Store

variable {s : Store} {config : Config} {first second : String}

theorem freshDecode_eq_ok_iff {marker text : String} (force : s.global = some config)
    {x : UInt64} : s.freshDecode marker text = .ok ⟨x⟩ ↔
      ∃ token, text = Field.label marker ++ token ∧
        (MaskKind.uint64.mask config).freshUnmask (s.ring config.ring) token = .ok x := by
  rw [freshDecode, force]
  constructor
  · intro decoded
    cases found : Field.tokenOf marker text with
    | error e =>
      rw [found] at decoded
      contradiction
    | ok token =>
      refine ⟨token, Field.tokenOf_eq_ok_iff.mp found, ?_⟩
      rw [found, Except.bind] at decoded
      simp only at decoded
      cases read : (MaskKind.uint64.mask config).freshUnmask (s.ring config.ring) token with
      | error e =>
        rw [read] at decoded
        contradiction
      | ok id =>
        rw [read] at decoded
        cases decoded
        rfl
  · rintro ⟨token, split, read⟩
    rw [Field.tokenOf_eq_ok_iff.mpr split, Except.bind]
    simp only
    rw [read]
    rfl

/-- When the text of a field is read as a field of another kind. -/
theorem freshDecode_other_iff (force : s.global = some config) {envelope : Bytes}
    (whole : envelope.length = config.eightByte.envelopeLength) {text : String}
    (made : text = Field.label first ++ config.codec.encode envelope) (x : UInt64) :
    s.freshDecode second text = .ok ⟨x⟩ ↔
      (∃ gap, Field.label first = Field.label second ++ gap ∧ config.codec.decode gap = .ok []) ∧
        text.length ≤ (Field.label second).length + IdMask.maxTokenLength ∧
        s.freshDecode first text = .ok ⟨x⟩ := by
  have whole : envelope.length = (MaskKind.uint64.mask config).engine.envelopeLength := whole
  rw [freshDecode_eq_ok_iff force, freshDecode_eq_ok_iff force]
  constructor
  · rintro ⟨token, split, read⟩
    obtain ⟨gap, shorter, rfl⟩ | ⟨gap, more, _, cut⟩ :=
      append_eq_append_cases (made.symm.trans split)
    · obtain ⟨blank, short, read⟩ := (IdMask.freshUnmask_append_iff whole gap).mp read
      refine ⟨⟨gap, shorter, blank⟩, ?_, _, made, read⟩
      rw [split, String.length_append]
      exact Nat.add_le_add_left short _
    · exact absurd read (IdMask.freshUnmask_rest_ne whole more cut x)
  · rintro ⟨⟨gap, shorter, blank⟩, short, token, split, read⟩
    obtain rfl : token = config.codec.encode envelope :=
      ((String.append_right_inj _).mp (made.symm.trans split)).symm
    have split : text = Field.label second ++ (gap ++ config.codec.encode envelope) := by
      rw [made, shorter, String.append_assoc]
    rw [split, String.length_append] at short
    exact ⟨_, split, (IdMask.freshUnmask_append_iff whole gap).mpr
      ⟨blank, Nat.le_of_add_le_add_left short, read⟩⟩

variable {s' : Store} (reached : s.FieldsReach) (reached' : s'.FieldsReach)
  (force : s.global = some config) (force' : s'.global = some config) {id : UInt64} {noise : Noise}
  {text : String} (made : (s.encodeField noise (⟨id⟩ : Field first)).result = .ok text)
include reached reached' force force' made

/-- The text of a field is taken for a field of another kind exactly when the codec reads nothing
in what the first label has more than the second, if the text is not too long. -/
theorem decodeField_other_iff (x : UInt64) :
    (s'.decodeField second text).result = .ok ⟨x⟩ ↔
      (∃ gap, Field.label first = Field.label second ++ gap ∧ config.codec.decode gap = .ok []) ∧
        text.length ≤ (Field.label second).length + IdMask.maxTokenLength ∧
        (s'.decodeField first text).result = .ok ⟨x⟩ := by
  obtain ⟨sets, few, kept⟩ := reached.kept
  obtain ⟨sets', few', kept'⟩ := reached'.kept
  obtain ⟨envelope, whole, split⟩ := envelope_of_encodeField few kept force made
  rw [decodeField_result few' kept', decodeField_result few' kept']
  exact freshDecode_other_iff force' whole split x

theorem decodeField_other_of_no_underscore (differ : first ≠ second)
    (free : config.codec.form.separates '_' = false) :
    ∃ e, (s'.decodeField second text).result = .error e := by
  obtain ⟨sets, few, kept⟩ := reached.kept
  obtain ⟨sets', few', kept'⟩ := reached'.kept
  obtain ⟨envelope, whole, split⟩ := envelope_of_encodeField few kept force made
  rw [decodeField_result few' kept']
  cases decoded : s'.freshDecode second text with
  | error e => exact ⟨e, rfl⟩
  | ok f =>
    obtain ⟨⟨gap, shorter, blank⟩, _⟩ := (freshDecode_other_iff force' whole split f.id).mp decoded
    have separator := Codec.Form.separates_of_blank config.codec.wellFormed
      (Codec.decode_eq_ok_iff_form.mp blank) '_' (Field.underscore_mem_of_gap differ shorter)
    rw [free] at separator
    contradiction

end Store

example : Codec.base64Url.form.separates '_' = false := rfl

namespace Store

def labelling (codec : Codec) : Store := Fleet.sampleStore.setGlobal { ring := 0, codec }

theorem fieldsReach_labelling (codec : Codec) : (labelling codec).FieldsReach :=
  ⟨Fleet.sampleStore, [.setGlobal { ring := 0, codec }], rfl, by simp [FieldCall.isSet], rfl⟩

theorem decodeField_other_sample :
    ((labelling .base64Url).encodeField (fun _ => 0) (⟨5⟩ : Field "user")).result =
        .ok "user_KSncZGHzOQY_ausco4juLbE" ∧
      ((labelling .base64Url).decodeField "user_KSncZGHzOQY" "user_KSncZGHzOQY_ausco4juLbE").result ≠
        .ok ⟨5⟩ := by
  have made : ((labelling .base64Url).encodeField (fun _ => 0) (⟨5⟩ : Field "user")).result =
    .ok "user_KSncZGHzOQY_ausco4juLbE" := by decide +kernel
  refine ⟨made, ?_⟩
  have reached := fieldsReach_labelling .base64Url
  intro decoded
  obtain ⟨⟨gap, longer, _⟩, _⟩ := (decodeField_other_iff reached reached rfl rfl made 5).mp decoded
  have lengths := congrArg String.length longer
  rw [String.length_append] at lengths
  have first : (Field.label "user").length = 5 := by decide
  have second : (Field.label "user_KSncZGHzOQY").length = 17 := by decide
  omega

def underscored : Codec :=
  ⟨.grouped (.plain .base16) 4 ['_'], trivial, by decide, by decide, by decide, by decide⟩

/-- With underscores between groups, a name that ends in one is taken for the name without it. -/
theorem decodeField_other_confused :
    Codec.grouped .base16 4 "_" = .ok underscored ∧ "user_" ≠ "user" ∧
      ((labelling underscored).encodeField (fun _ => 0) (⟨5⟩ : Field "user_")).result =
        .ok "user__2929_dc64_61f3_3906_3f6a_eb1c_a388_ee2d_b1" ∧
      ((labelling underscored).decodeField "user"
        "user__2929_dc64_61f3_3906_3f6a_eb1c_a388_ee2d_b1").result = .ok ⟨5⟩ := by
  refine ⟨rfl, by decide, ?_, ?_⟩
  · decide +kernel
  · decide +kernel

end Store

end IdVeil
