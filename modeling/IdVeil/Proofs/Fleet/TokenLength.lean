import IdVeil.Proofs.Codec.TextLength
import IdVeil.Proofs.Codec.Symbols
import IdVeil.Proofs.Fleet.Failures

/-!
How long tokens are. A mask makes tokens of one length, whatever the id, the key and the entropy
(`length_of_produce`), and no use or clearing puts others into its cache than those of the masks it
shares it with (`call_measured`). A text is refused as too long before it is looked at or not at all
(`unmask_eq_inputLength_iff`), so either all tokens of a mask are too long or none is
(`token_length`).
-/
namespace IdVeil

theorem Layout.inputLength_of_ofBytes {layout : Layout} {bs : Bytes} {expected actual : Nat}
    (failed : layout.ofBytes bs = .error (.inputLength expected actual)) :
    expected = layout.byteLength := by
  by_cases length : bs.length = layout.byteLength
  · obtain ⟨_, other⟩ | ⟨_, other⟩ := ofBytes_eq_error length failed
    all_goals cases other
  · rw [ofBytes, dif_neg length] at failed
    cases failed
    rfl

namespace Engine

variable {e : Engine} {ring : KeyRing} {memo : Memo Bytes} {env : Bytes}

theorem inputLength_of_unmask {expected actual : Nat}
    (failed : (e.unmask ring memo env).result = .error (.inputLength expected actual)) :
    expected = e.envelopeLength := by
  rw [unmask_eq] at failed
  split at failed
  · cases failed
    rfl
  · split at failed
    · cases failed
    · split at failed
      · cases failed
      · split at failed
        all_goals cases failed

theorem valueLength_lt (e : Engine) : e.valueLength < 256 := by
  have most : e.scheme.valueLength < 256 := by
    cases e.scheme with
    | eightByte => decide
    | sixteenByte high => cases high <;> decide
    | siv w obfuscation =>
      change w.valueLength < 256
      cases w <;> decide
  exact most

end Engine

namespace IdMask

variable {layout : Layout} {m : IdMask layout} {engineRing ring : KeyRing} {memo : Memo Bytes}
  {token : String}

def tokenLength (m : IdMask layout) : Nat := m.codec.textLength m.engine.envelopeLength

theorem length_of_produce {noise : Noise} {bytes : Bytes}
    (made : (m.produce ring memo noise bytes).result = .ok token) :
    token.length = m.tokenLength := by
  rw [produce] at made
  cases masked : (m.engine.mask ring memo noise bytes).result with
  | error e =>
    rw [masked] at made
    contradiction
  | ok env =>
    rw [masked] at made
    cases made
    rw [Codec.length_encode, Engine.length_of_mask masked, tokenLength]

theorem lt_of_ofBytes (m : IdMask layout) {bytes : Bytes} {expected actual : Nat}
    (failed : layout.ofBytes bytes = .error (.inputLength expected actual)) :
    expected < maxTokenLength := by
  rw [Layout.inputLength_of_ofBytes failed, ← m.length_eq]
  exact m.engine.valueLength_lt

/-- The lengths that reading asks for are all below the most that a token may have. -/
theorem lt_of_accept {expected actual : Nat}
    (failed : (m.accept ring memo token).result = .error (.inputLength expected actual)) :
    expected < maxTokenLength := by
  unfold accept at failed
  cases decoded : m.codec.decode token with
  | error e =>
    rw [decoded] at failed
    cases failed
    unfold Codec.decode at decoded
    split at decoded
    · contradiction
    · cases decoded
  | ok env =>
    simp only [decoded] at failed
    cases opened : (m.engine.unmask ring memo env).result with
    | error e =>
      rw [opened] at failed
      cases failed
      rw [Engine.inputLength_of_unmask opened]
      exact m.engine.envelopeLength_lt
    | ok bytes =>
      rw [opened] at failed
      change (layout.ofBytes bytes).map (fun id => (bytes, id)) = _ at failed
      cases read : layout.ofBytes bytes with
      | ok id =>
        rw [read] at failed
        contradiction
      | error e =>
        rw [read] at failed
        cases failed
        exact m.lt_of_ofBytes read

section

variable {γ : Type} [ResultCache γ] {state : MaskState γ}

/-- A text is refused as too long when it is, and only then, in any state of the mask. -/
theorem unmask_eq_inputLength_iff {actual : Nat} :
    (m.unmask engineRing ring state token).result = .error (.inputLength maxTokenLength actual) ↔
      maxTokenLength < token.length ∧ actual = token.length := by
  have step := m.unmask_step engineRing ring state token
  generalize m.unmask engineRing ring state token = done at step
  generalize m.unmaskRequests engineRing ring state token = requests at step
  cases step with
  | long long => simp [Outcome.fail, long, eq_comm]
  | @uncached result _ _ short _ read =>
    simp only [short, false_and, iff_false]
    intro failed
    cases result with
    | ok pair => contradiction
    | error e =>
      cases failed
      exact (lt_of_accept (congrArg Outcome.result read)).ne rfl
  | found short =>
    simp only [short, false_and, iff_false]
    exact fun failed => (m.lt_of_ofBytes failed).ne rfl
  | read short => simp [short]
  | failed short _ _ failed =>
    simp only [short, false_and, iff_false]
    intro same
    cases same
    exact (lt_of_accept (congrArg Outcome.result failed)).ne rfl

/-- A token is one that the mask makes, or one from its cache. -/
theorem MaskStep.length_or_found {state : MaskState MemoryCache} {noise : Noise} {id : layout.Id}
    {requests : List CacheRequest} {done : Outcome (MaskState MemoryCache) String}
    (step : m.MaskStep engineRing ring state noise id done requests)
    (answered : done.result = .ok token) :
    token.length = m.tokenLength ∨ ∃ cache bytes, state.cache = some cache ∧
      (ResultCache.findToken cache bytes).value = some token := by
  cases step with
  | refused | failed => contradiction
  | uncached _ _ made | made _ _ _ made =>
    exact .inl (length_of_produce ((congrArg Outcome.result made).trans answered))
  | found _ asked found =>
    cases answered
    exact .inr ⟨_, _, (liveCache?_eq_some_iff.mp asked).2, congrArg Found.value found⟩

end

end IdMask

namespace Fleet

variable {ι : Type} {layouts : ι → Layout} {f : Fleet layouts} {i : ι}

def tokenLength (f : Fleet layouts) (i : ι) : Nat := (f.maskers i).idMask.tokenLength

/-- The token is as long as those of a mask with the same cache. -/
def OfLength (f : Fleet layouts) (i : ι) (token : String) : Prop :=
  ∃ j, f.Sharing i j ∧ token.length = f.tokenLength j

/-- All tokens that are kept are as long as those of a mask that may have put them there. -/
def Measured (f : Fleet layouts) : Prop :=
  ∀ i, ∀ cache ∈ (f.maskers i).cacheIn f.store,
    cache.Holds (fun _ => f.OfLength i) (fun _ _ => True)

theorem measured_of_empty
    (new : ∀ i, ∀ cache ∈ (f.maskers i).cacheIn f.store, ∃ capacity, cache = .empty capacity) :
    f.Measured := by
  intro i cache stored
  obtain ⟨capacity, rfl⟩ := new i cache stored
  exact MemoryCache.holds_empty capacity

theorem Measured.ofLength (measured : f.Measured) {noise : Noise} {id : (layouts i).Id}
    {token : String} (answered : f.mask i noise id = .ok token) : f.OfLength i token := by
  rw [mask, Masker.mask_result] at answered
  obtain length | ⟨cache, bytes, kept, found⟩ := (IdMask.mask_step ..).length_or_found answered
  · exact ⟨i, .inl rfl, length⟩
  · exact (measured i cache kept).of_findToken found

variable [DecidableEq ι]

theorem put_measured {next : Masker (layouts i) × Store} (measured : f.Measured)
    (frame : Masker.Frame (f.maskers i) f.store next)
    (holds : ∀ k, f.Sharing i k → ∀ cache ∈ next.1.cacheIn next.2,
      cache.Holds (fun _ => f.OfLength k) (fun _ _ => True)) : (f.put i next).Measured := by
  intro k cache stored
  have before : cache.Holds (fun _ => f.OfLength k) (fun _ _ => True) := by
    rcases cacheIn_put_cases frame k with ⟨shared, put⟩ | kept
    · exact holds k shared cache (put ▸ stored)
    · exact measured k cache (kept ▸ stored)
  refine before.mono ?_ fun _ _ _ => trivial
  rintro _ token ⟨j, sharing, length⟩
  have same := congrArg (fun g : Fleet layouts => g.tokenLength j) (put_bare frame)
  exact ⟨j, (put_sharing frame k j).mpr sharing, length.trans same.symm⟩

theorem mask_measured (measured : f.Measured) (noise : Noise) (id : (layouts i).Id) :
    (f.put i ((f.maskers i).mask f.store noise id).state).Measured := by
  refine put_measured measured (f.mask_frame i noise id) fun k sharing cache stored => ?_
  rw [Masker.mask_cacheIn, (IdMask.mask_step ..).cache_eq] at stored
  obtain ⟨start, kept, rfl⟩ := Option.map_eq_some_iff.mp stored
  have held := measured k start ((sharing.cacheIn_eq f.store).trans kept)
  refine held.journal fun request member writes => ?_
  obtain ⟨bytes, token, _, _, made, _, rfl⟩ := (IdMask.mask_step ..).of_writes member writes
  exact ⟨⟨i, sharing.symm, IdMask.length_of_produce made⟩, trivial⟩

theorem unmask_measured (measured : f.Measured) (i : ι) (token : String) :
    (f.put i ((f.maskers i).unmask f.store token).state).Measured := by
  refine put_measured measured (f.unmask_frame i token) fun k sharing cache stored => ?_
  rw [Masker.unmask_cacheIn, (IdMask.unmask_step ..).cache_eq] at stored
  obtain ⟨start, kept, rfl⟩ := Option.map_eq_some_iff.mp stored
  have held := measured k start ((sharing.cacheIn_eq f.store).trans kept)
  refine held.journal fun request member writes => ?_
  obtain ⟨bytes, id, _, _, _, rfl⟩ := (IdMask.unmask_step ..).of_writes member writes
  trivial

theorem call_measured (measured : f.Measured) (c : Call layouts) : (f.call c).2.Measured := by
  cases c with
  | use u =>
    cases u with
    | mask i noise id => exact mask_measured measured noise id
    | unmask i token => exact unmask_measured measured i token
  | clear i =>
    have cleared : (f.clearRing (f.maskers i).engineRing).Measured := measured
    change ((f.clearRing (f.maskers i).engineRing).put i
      ((f.maskers i).clear f.store).state).Measured
    refine put_measured cleared (f.clear_frame i) fun k sharing cache stored => ?_
    rw [Masker.clear_cacheIn] at stored
    obtain ⟨before, _, rfl⟩ := Option.mem_map.mp stored
    exact MemoryCache.holds_clear before
  | clearEngine i =>
    have cleared : (f.clearRing (f.maskers i).engineRing).Measured := measured
    change ((f.clearRing (f.maskers i).engineRing).put i
      ({ f.maskers i with memo := [] }, _)).Measured
    refine put_measured cleared (f.clearEngine_frame i) fun k sharing cache stored => ?_
    exact cleared k cache (sharing.cacheIn_eq _ ▸ stored)
  | clearRing id => exact measured

theorem after_measured (measured : f.Measured) (calls : List (Call layouts)) :
    (f.after calls).Measured := by
  induction calls generalizing f with
  | nil => exact measured
  | cons c calls ih => exact ih (call_measured measured c)

theorem after_tokenLength (f : Fleet layouts) (calls : List (Call layouts)) (i : ι) :
    (f.after calls).tokenLength i = f.tokenLength i :=
  congrArg (fun m => m.idMask.tokenLength) (f.after_maskers calls i)

/-- All tokens that a mask makes are equally long. Whatever was masked, unmasked and cleared before,
a token that it answers with is as long as those of a mask with the same cache, so it is as long as
its own if these are, and always if it shares its cache with no mask. Of texts that long it refuses
all as too long, or none. -/
theorem token_length (f : Fleet layouts)
    (new : ∀ i, ∀ cache ∈ (f.maskers i).cacheIn f.store, ∃ capacity, cache = .empty capacity)
    (calls : List (Call layouts)) (i : ι) :
    (∀ ring memo noise bytes token,
      ((f.maskers i).idMask.produce ring memo noise bytes).result = .ok token →
        token.length = f.tokenLength i) ∧
      (∀ noise id token, (f.after calls).mask i noise id = .ok token →
        ∃ j, f.Sharing i j ∧ token.length = f.tokenLength j) ∧
      ((∀ j, f.Sharing i j → f.tokenLength j = f.tokenLength i) →
        ∀ noise id token, (f.after calls).mask i noise id = .ok token →
          token.length = f.tokenLength i) ∧
      ((∀ id, (f.maskers i).cache ≠ .shared id) →
        ∀ noise id token, (f.after calls).mask i noise id = .ok token →
          token.length = f.tokenLength i) ∧
      ∀ text, text.length = f.tokenLength i → ∀ actual,
        (f.after calls).unmask i text = .error (.inputLength IdMask.maxTokenLength actual) ↔
          IdMask.maxTokenLength < f.tokenLength i ∧ actual = f.tokenLength i := by
  have answered {noise : Noise} {id : (layouts i).Id} {token : String}
      (made : (f.after calls).mask i noise id = .ok token) : f.OfLength i token := by
    obtain ⟨j, sharing, length⟩ := (after_measured (measured_of_empty new) calls).ofLength made
    exact ⟨j, (f.after_sharing calls i j).mp sharing, length.trans (f.after_tokenLength calls j)⟩
  refine ⟨?_, fun _ _ _ made => answered made, ?_, ?_, ?_⟩
  · intro ring memo noise bytes token made
    exact IdMask.length_of_produce made
  · intro alike noise id token made
    obtain ⟨j, sharing, length⟩ := answered made
    exact length.trans (alike j sharing)
  · intro unshared noise id token made
    obtain ⟨j, sharing, length⟩ := answered made
    rw [length, sharing.eq_of_unshared unshared]
  · intro text length actual
    rw [unmask, Masker.unmask_result, IdMask.unmask_eq_inputLength_iff, length]

/-- A mask of big integers that writes in two layers of groups. -/
def bigIntegers : Fleet fun _ : Unit => (MaskKind.bigInteger).layout :=
  ofKinds sampleStore (fun _ => .bigInteger) fun _ => { ring := 0, codec := Codec.twosOfThrees }

theorem token_length_sample :
    (∀ i, ∀ cache ∈ (bigIntegers.maskers i).cacheIn bigIntegers.store,
      ∃ capacity, cache = .empty capacity) ∧
    ∃ small large, bigIntegers.mask () (fun _ => 0) (Int128.ofInt 5) = .ok small ∧
      (bigIntegers.after [.use (.mask () (fun _ => 0) (Int128.ofInt 5))]).mask () (fun _ => 0)
        (Int128.ofInt (2 ^ 112)) = .ok large ∧ small.length = 194 ∧ large.length = 194 := by
  have new : ∀ i, ∀ cache ∈ (bigIntegers.maskers i).cacheIn bigIntegers.store,
      ∃ capacity, cache = .empty capacity := by
    rintro _ cache ⟨⟩
    exact ⟨_, rfl⟩
  have length : bigIntegers.tokenLength () = 194 := by decide
  have alike : ∀ j, bigIntegers.Sharing () j →
      bigIntegers.tokenLength j = bigIntegers.tokenLength () := fun _ _ => rfl
  have unshared : ∀ id, (bigIntegers.maskers ()).cache ≠ .shared id := nofun
  have small : (bigIntegers.mask () (fun _ => 0) (Int128.ofInt 5)).toOption.isSome = true := by
    decide +kernel
  have large : ((bigIntegers.after [.use (.mask () (fun _ => 0) (Int128.ofInt 5))]).mask () (fun _ => 0)
      (Int128.ofInt (2 ^ 112))).toOption.isSome = true := by decide +kernel
  obtain ⟨short, first⟩ := Option.isSome_iff_exists.mp small
  obtain ⟨long, second⟩ := Option.isSome_iff_exists.mp large
  have first := ok_of_toOption first
  have second := ok_of_toOption second
  obtain ⟨_, _, before, _⟩ := token_length bigIntegers new [] ()
  obtain ⟨_, _, _, after, _⟩ :=
    token_length bigIntegers new [.use (.mask () (fun _ => 0) (Int128.ofInt 5))] ()
  exact ⟨new, short, long, first, second, (before alike _ _ _ first).trans length,
    (after unshared _ _ _ second).trans length⟩

end Fleet

end IdVeil
