import IdVeil.Proofs.Fleet.PrivateCaches

/-!
The round trip. A token is recovered as the id it was made of, unless it is longer than the texts
that are looked at; then it is refused for its length, whatever it is.
-/
namespace IdVeil.Fleet

variable {ι : Type} {layouts : ι → Layout} {f : Fleet layouts}

theorem ready_of_built (built : ∀ i, (f.maskers i).Built) (us : List (Use layouts)) :
    f.Ready (maskedBy (us.map .use)) (us.map .use) :=
  ready_of_unused (fun i => (built i).unused) (.inl (exists_use_of_mem us))

variable [DecidableEq ι]

theorem freshUnmask_of_freshMask {layout : Layout} {m : IdMask layout} {ring : KeyRing}
    {noise : Noise} {id : layout.Id} {token : String} (made : m.freshMask ring noise id = .ok token) :
    m.freshUnmask ring token =
      if token.length ≤ 256 then .ok id else .error (.inputLength 256 token.length) := by
  obtain ⟨bytes, written, fresh⟩ := IdMask.freshMask_eq_ok_iff.mp made
  have read := IdMask.freshRead_of_freshToken written fresh
  by_cases short : token.length ≤ 256
  · rw [if_pos short]
    exact IdMask.freshUnmask_eq_ok_iff.mpr ⟨short, bytes, read⟩
  · rw [if_neg short, IdMask.freshUnmask]
    exact if_pos (Nat.lt_of_not_le short)

/-- A token that was made is recovered, unless it is too long to be looked at. What the masks are
used for before and in between does not matter, as long as a mask that remembers its tokens masked
no other id with the same digest before. -/
theorem unmask_mask (built : ∀ i, (f.maskers i).Built) (earlier later : List (Use layouts)) {i : ι}
    {noise : Noise} {id : (layouts i).Id} {token : String}
    (distinct : (f.maskers i).Remembers → ∀ bytes, (layouts i).toBytes id = .ok bytes →
      ∀ other ∈ maskedBy (earlier.map .use) i, sha256 bytes = sha256 other → other = bytes)
    (made : (f.after (earlier.map .use)).mask i noise id = .ok token) :
    (f.after ((earlier ++ .mask i noise id :: later).map .use)).unmask i token =
      if token.length ≤ 256 then .ok id else .error (.inputLength 256 token.length) := by
  have before := (ready_of_built built earlier).done
  have after := (ready_of_built built (earlier ++ .mask i noise id :: later)).done
  have isolated : (f.after (earlier.map .use)).Private := by
    intro j k sharing
    exact private_of_unused (fun i => (built i).unused) j k ((f.after_sharing _ j k).mp sharing)
  -- Uses before have changed neither the mask nor its ring, only what was kept from them.
  have fresh : (f.maskers i).idMask.freshMask (f.engineRing i) noise id = .ok token := by
    have same := congrArg
      (fun g : Fleet layouts => (g.maskers i).idMask.freshMask (g.engineRing i) noise id)
      (f.after_uses_bare earlier)
    refine same.symm.trans (Eq.trans (Eq.symm ?_) made)
    apply mask_answer before.coherent before.vouching fun _ _ => written_of_maskedBy
    intro remembers bytes written j sharing other known
    obtain rfl := isolated i j sharing
    exact distinct ((f.after_uses_remembers earlier i).mp remembers) bytes written other known
  have same := congrArg
    (fun g : Fleet layouts => (g.maskers i).idMask.freshUnmask (g.engineRing i) token)
    (f.after_uses_bare (earlier ++ .mask i noise id :: later))
  rw [unmask_answer after.coherent after.vouching]
  exact same.trans (freshUnmask_of_freshMask fresh)

def sampleUses : List (Use fun i => (sampleKinds i).layout) :=
  [.unmask true "x", .mask false (fun _ => 0) (7 : Int64)]

theorem unmask_mask_sample :
    (∀ i, ((ofKinds sampleStore sampleKinds sampleConfigs).maskers i).Built) ∧
      ((ofKinds sampleStore sampleKinds sampleConfigs).after (sampleUses.map .use)).mask false
        (fun _ => 0) (5 : Int64) = .ok "KSncZGHzOQY_ausco4juLbE" ∧
      ((ofKinds sampleStore sampleKinds sampleConfigs).after ((sampleUses ++
        .mask false (fun _ => 0) (5 : Int64) :: sampleUses).map .use)).unmask false
          "KSncZGHzOQY_ausco4juLbE" = .ok (5 : Int64) := by
  have built : ∀ i, ((ofKinds sampleStore sampleKinds sampleConfigs).maskers i).Built :=
    fun i => .ofKind (sampleKinds i) (sampleConfigs i)
  have made : ((ofKinds sampleStore sampleKinds sampleConfigs).after (sampleUses.map .use)).mask
      false (fun _ => 0) (5 : Int64) = .ok "KSncZGHzOQY_ausco4juLbE" := by
    have text : (((ofKinds sampleStore sampleKinds sampleConfigs).after (sampleUses.map .use)).mask
      false (fun _ => 0) (5 : Int64)).toOption.map String.toList =
        some "KSncZGHzOQY_ausco4juLbE".toList := by decide +kernel
    obtain ⟨token, found, same⟩ := Option.map_eq_some_iff.mp text
    rw [ok_of_toOption found, String.toList_inj.mp same]
  refine ⟨built, made, ?_⟩
  have distinct : ∀ bytes, (sampleKinds false).layout.toBytes (5 : Int64) = .ok bytes →
      ∀ other ∈ maskedBy (sampleUses.map .use) false, sha256 bytes = sha256 other →
        other = bytes := by
    rintro bytes ⟨⟩ other ⟨noise, id, member, written⟩ same
    simp only [sampleUses, List.map_cons, List.map_nil, List.mem_cons, List.not_mem_nil,
      or_false] at member
    rcases member with member | member
    all_goals cases member
    cases written
    exact absurd same (by decide +kernel)
  exact unmask_mask built sampleUses sampleUses (fun _ => distinct) made

def binary : Alphabet where
  symbols := ['0', '1']
  width := 1
  eitherCase := false
  width_pos := by decide
  width_le := by decide
  length_symbols := by decide
  distinct := by decide
  lower := by simp

def binaryFleet : Fleet fun _ : Unit => (MaskKind.bytes32).layout :=
  ofKinds sampleStore (fun _ => .bytes32) fun _ => { ring := 0, codec := .ofAlphabet binary }

def zeroId : FixedBytes 32 := ⟨Bytes.zeros 32, rfl⟩

def binaryEnvelope : Bytes :=
  (Config.siv { ring := 0 } .int32).envelope sampleKey [] (Bytes.zeros 32)

theorem length_binaryToken : ((Codec.ofAlphabet binary).encode binaryEnvelope).length = 392 := by
  have envelope : binaryEnvelope.length = 49 := Engine.length_envelope rfl rfl
  have text : (binary.encode binaryEnvelope).length = 392 := by
    rw [Alphabet.length_encode, envelope]
    rfl
  exact String.length_ofList.trans text

/-- A token in binary digits is made, and refused for its length. -/
theorem unmask_mask_binary : Codec.ofSymbols "01" = .ok (.ofAlphabet binary) ∧
    ∃ token, binaryFleet.mask () (fun _ => 0) zeroId = .ok token ∧
      (binaryFleet.after [.use (.mask () (fun _ => 0) zeroId)]).unmask () token =
        .error (.inputLength 256 392) := by
  have built : ∀ i, (binaryFleet.maskers i).Built := fun _ => .ofKind _ _
  have before := ready_of_built built []
  have after := (ready_of_built built [.mask () (fun _ => 0) zeroId]).done
  have active : (binaryFleet.engineRing ()).active? = some sampleKey := rfl
  have made : binaryFleet.mask () (fun _ => 0) zeroId =
      .ok ((Codec.ofAlphabet binary).encode binaryEnvelope) := by
    have fresh : (binaryFleet.maskers ()).idMask.freshMask (binaryFleet.engineRing ()) (fun _ => 0)
        zeroId = .ok ((Codec.ofAlphabet binary).encode binaryEnvelope) :=
      IdMask.freshMask_of_active rfl active _ _
    refine Eq.trans ?_ fresh
    apply mask_answer before.coherent before.vouching fun _ _ => written_of_maskedBy
    rintro _ _ _ _ _ other ⟨_, _, member, _⟩ _
    cases member
  refine ⟨rfl, _, made, ?_⟩
  refine (unmask_answer after.coherent after.vouching () _).trans ?_
  rw [IdMask.freshUnmask, length_binaryToken]
  rfl

end IdVeil.Fleet
