import IdVeil.Proofs.Fleet.PrivateCaches

/-!
What is accepted. In any state of the keys and of its cache, a mask accepts only spellings of
tokens that it makes of the id it answers with, under a key that is held. Big integers are left
out, since they have many layouts.
-/
namespace IdVeil.Fleet

theorem layout_ne_bigInteger {kind : MaskKind} (h : kind ≠ .bigInteger) :
    kind.layout ≠ .bigInteger := by
  cases kind with
  | bigInteger => exact absurd rfl h
  | _ => decide

variable {ι : Type} [DecidableEq ι] {s : Store} {kinds : ι → MaskKind} {configs : ι → Config}

theorem freshRead_of_unmask {calls : List (Call fun i => (kinds i).layout)} {i : ι}
    {token : String} {id : (kinds i).layout.Id}
    (accepted : ((ofKinds s kinds configs).after calls).unmask i token = .ok id) :
    ∃ bytes, ((kinds i).mask (configs i)).freshRead
      (((ofKinds s kinds configs).after calls).store.ring (configs i).ring) token =
        .ok (bytes, id) := by
  have ready : (ofKinds s kinds configs).Ready _ (calls ++ [.use (.unmask i token)]) :=
    ready_ofKinds _
  rw [unmask_answer ready.after.coherent ready.after.vouching, idMask_after,
    engineRing_after] at accepted
  exact (IdMask.freshUnmask_eq_ok_iff.mp accepted).2

theorem spelling_of_unmask {calls : List (Call fun i => (kinds i).layout)} {i : ι}
    (kind : kinds i ≠ .bigInteger) {token : String} {id : (kinds i).layout.Id}
    (accepted : ((ofKinds s kinds configs).after calls).unmask i token = .ok id) :
    ∃ key entropy bytes, (kinds i).layout.toBytes id = .ok bytes ∧
      (((ofKinds s kinds configs).after calls).store.ring (configs i).ring).find? key.id =
        some key ∧
      entropy.length = ((kinds i).engine (configs i)).entropyLength ∧
      (configs i).codec.SameText token
        ((configs i).codec.encode (((kinds i).engine (configs i)).envelope key entropy bytes)) := by
  obtain ⟨bytes, read⟩ := freshRead_of_unmask accepted
  obtain ⟨ids, key, entropy, found, length, _, same⟩ := IdMask.freshRead_eq_ok_iff.mp read
  exact ⟨key, entropy, bytes, Layout.toBytes_ofBytes (layout_ne_bigInteger kind) ids, found, length, same⟩

/-- With one key and no entropy, a codec with one spelling leaves one text for an id. -/
theorem token_of_unmask {calls : List (Call fun i => (kinds i).layout)} {i : ι}
    (kind : kinds i ≠ .bigInteger) {key : SecretKey}
    (single : (s.ring (configs i).ring).keys = [key]) (deterministic : (configs i).randomized = false)
    (strict : (configs i).codec.Strict) {token : String} {id : (kinds i).layout.Id}
    (accepted : ((ofKinds s kinds configs).after calls).unmask i token = .ok id) :
    ∃ bytes, (kinds i).layout.toBytes id = .ok bytes ∧ token =
      (configs i).codec.encode (((kinds i).engine (configs i)).envelope key [] bytes) := by
  obtain ⟨key', entropy, bytes, written, held, length, same⟩ := spelling_of_unmask kind accepted
  have deterministic := (randomized_engine (kinds i) (configs i)).trans deterministic
  rw [Engine.entropyLength_of_not_randomized deterministic] at length
  obtain rfl := List.length_eq_zero_iff.mp length
  -- Clearing takes keys away and nothing adds any, so the key was held from the start.
  have before : (s.ring (configs i).ring).find? key'.id = some key' := find?_of_after _ calls held
  have member := List.mem_of_find?_eq_some before
  rw [single] at member
  obtain rfl := List.mem_singleton.mp member
  exact ⟨bytes, written, strict.eq_of_sameText same⟩

/-- A mask accepts only spellings of the tokens of an id, under the keys it holds and with as much
entropy as it draws. Where the codec has one spelling it accepts only the tokens themselves, and
with a single key and no entropy it accepts one text for each id, at any time. -/
theorem accepted_spellings (s : Store) (kinds : ι → MaskKind) (configs : ι → Config) (i : ι)
    (kind : kinds i ≠ .bigInteger) :
    (∀ calls token id, ((ofKinds s kinds configs).after calls).unmask i token = .ok id →
      ∃ key entropy bytes, (kinds i).layout.toBytes id = .ok bytes ∧
        (((ofKinds s kinds configs).after calls).store.ring (configs i).ring).find? key.id =
          some key ∧
        entropy.length = ((kinds i).engine (configs i)).entropyLength ∧
        (configs i).codec.SameText token
          ((configs i).codec.encode (((kinds i).engine (configs i)).envelope key entropy bytes)) ∧
        ((configs i).codec.Strict → token =
          (configs i).codec.encode (((kinds i).engine (configs i)).envelope key entropy bytes))) ∧
      ∀ key, (s.ring (configs i).ring).keys = [key] → (configs i).randomized = false →
        (configs i).codec.Strict → ∀ calls calls' token token' id,
          ((ofKinds s kinds configs).after calls).unmask i token = .ok id →
          ((ofKinds s kinds configs).after calls').unmask i token' = .ok id → token = token' := by
  constructor
  · intro calls token id accepted
    obtain ⟨key, entropy, bytes, written, held, length, same⟩ := spelling_of_unmask kind accepted
    exact ⟨key, entropy, bytes, written, held, length, same, fun strict => strict.eq_of_sameText same⟩
  · intro key single deterministic strict calls calls' token token' id accepted accepted'
    obtain ⟨bytes, written, rfl⟩ := token_of_unmask kind single deterministic strict accepted
    obtain ⟨bytes', written', rfl⟩ := token_of_unmask kind single deterministic strict accepted'
    cases written.symm.trans written'
    rfl

theorem accepted_spellings_sample :
    sampleKinds false ≠ .bigInteger ∧
      ((ofKinds sampleStore sampleKinds sampleConfigs).after sampleCalls).unmask false
        "KSncZGHzOQY_ausco4juLbE" = .ok (5 : Int64) ∧
      ∀ calls token, ((ofKinds sampleStore sampleKinds sampleConfigs).after calls).unmask false
        token = .ok (5 : Int64) → token = "KSncZGHzOQY_ausco4juLbE" := by
  have kind : sampleKinds false ≠ .bigInteger := by decide
  have read : ((ofKinds sampleStore sampleKinds sampleConfigs).after sampleCalls).unmask false
      "KSncZGHzOQY_ausco4juLbE" = .ok (5 : Int64) := by
    have found : @Except.toOption Error Int64
        (((ofKinds sampleStore sampleKinds sampleConfigs).after sampleCalls).unmask false
          "KSncZGHzOQY_ausco4juLbE") = some 5 := by decide +kernel
    exact ok_of_toOption found
  refine ⟨kind, read, ?_⟩
  intro calls token accepted
  have spellings := accepted_spellings sampleStore sampleKinds sampleConfigs false kind
  exact spellings.2 sampleKey rfl rfl .base64Url calls sampleCalls token _ _ accepted read

end IdVeil.Fleet
