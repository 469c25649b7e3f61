import IdVeil.Config
import IdVeil.Layout

/-!
Masks turn ids into tokens and back: a layout, an engine and a codec whose lengths fit together.
`produce` and `accept` say what a token is. `mask` and `unmask` are the same with a cache, which
answers only for deterministic engines and while the configured ring has its active key.
-/
namespace IdVeil

structure IdMask (layout : Layout) where
  engine : Engine
  codec : Codec
  length_eq : engine.valueLength = layout.byteLength

structure MaskState (γ : Type) where
  memo : Memo Bytes
  cache : Option γ

namespace IdMask

/-- Tokens with more characters are not looked at. -/
def maxTokenLength : Nat := 256

/-- Any engine with any layout of the same length. -/
def custom (config : Config) (engine : Engine) (layout : Layout) :
    Except ConfigError (IdMask layout) :=
  if h : engine.valueLength = layout.byteLength then .ok ⟨engine, config.codec, h⟩
  else .error (.lengthMismatch engine.valueLength layout.byteLength)

variable {layout : Layout}

def produce (m : IdMask layout) (ring : KeyRing) (memo : Memo Bytes) (noise : Noise) (id : Bytes) :
    Outcome (Memo Bytes) String :=
  let made := m.engine.mask ring memo noise id
  ⟨made.result.map m.codec.encode, made.state, made.events⟩

def accept (m : IdMask layout) (ring : KeyRing) (memo : Memo Bytes) (token : String) :
    Outcome (Memo Bytes) (Bytes × layout.Id) :=
  match m.codec.decode token with
  | .error e => .fail e memo
  | .ok envelope =>
    let opened := m.engine.unmask ring memo envelope
    let result := opened.result.bind fun bytes => (layout.ofBytes bytes).map fun id => (bytes, id)
    ⟨result, opened.state, opened.events⟩

variable {γ : Type} [ResultCache γ]

def liveCache? (m : IdMask layout) (ring : KeyRing) (state : MaskState γ) : Option γ :=
  if m.engine.randomized ∨ ¬ ring.contains ring.activeId then none else state.cache

/-- Masks an id. The engine draws its key from one ring, the configuration has another; they are
the same for all masks but those put together by hand. -/
def mask (m : IdMask layout) (engineRing ring : KeyRing) (state : MaskState γ) (noise : Noise)
    (id : layout.Id) : Outcome (MaskState γ) String :=
  match layout.toBytes id with
  | .error e => .fail e state
  | .ok bytes =>
    match m.liveCache? ring state with
    | none =>
      let made := m.produce engineRing state.memo noise bytes
      ⟨made.result, { state with memo := made.state }, made.events⟩
    | some cache =>
      let found := ResultCache.findToken cache bytes
      match found.value with
      | some token => ⟨.ok token, { state with cache := some found.cache }, found.events⟩
      | none =>
        let made := m.produce engineRing state.memo noise bytes
        let cache := match made.result with
          | .ok token => ResultCache.remember found.cache bytes token
          | .error _ => found.cache
        ⟨made.result, ⟨made.state, some cache⟩, found.events ++ made.events⟩

def unmask (m : IdMask layout) (engineRing ring : KeyRing) (state : MaskState γ) (token : String) :
    Outcome (MaskState γ) layout.Id :=
  if maxTokenLength < token.length then
    .fail (.inputLength maxTokenLength token.length) state
  else match m.liveCache? ring state with
    | none =>
      let read := m.accept engineRing state.memo token
      ⟨read.result.map Prod.snd, { state with memo := read.state }, read.events⟩
    | some cache =>
      let found := ResultCache.findId cache token
      match found.value with
      | some bytes => ⟨layout.ofBytes bytes, { state with cache := some found.cache }, found.events⟩
      | none =>
        let read := m.accept engineRing state.memo token
        let cache := match read.result with
          | .ok (bytes, _) => ResultCache.rememberRead found.cache token bytes
          | .error _ => found.cache
        ⟨read.result.map Prod.snd, ⟨read.state, some cache⟩, found.events ++ read.events⟩

/-- The state once the keys behind the mask are cleared. -/
def clearState (state : MaskState γ) : MaskState γ := ⟨[], state.cache.map ResultCache.clear⟩

end IdMask

inductive MaskKind where
  | int64
  | int64Siv
  | uint64
  | int32
  | int32Siv
  | int64Pair
  | uuid
  | uuidSiv
  | uint128
  | bigInteger
  | bytes16
  | bytes32
deriving DecidableEq, Repr

namespace MaskKind

def layout : MaskKind → Layout
  | int64 => .int64
  | int64Siv => .int64
  | uint64 => .uint64
  | int32 => .int32
  | int32Siv => .compactInt32
  | int64Pair => .int64Pair
  | uuid => .uuid
  | uuidSiv => .uuid
  | uint128 => .uint128
  | bigInteger => .bigInteger
  | bytes16 => .bytes 16
  | bytes32 => .bytes 32

def engine (kind : MaskKind) (config : Config) : Engine :=
  match kind with
  | int64 => config.eightByte
  | int64Siv => config.siv .int8
  | uint64 => config.eightByte
  | int32 => config.eightByte
  | int32Siv => config.siv .int4
  | int64Pair => config.sixteenByte
  | uuid => config.sixteenByte
  | uuidSiv => config.siv .int16
  | uint128 => config.sixteenByte
  | bigInteger => config.sixteenByte
  | bytes16 => config.sixteenByte
  | bytes32 => config.siv .int32

def mask (kind : MaskKind) (config : Config) : IdMask kind.layout where
  engine := kind.engine config
  codec := config.codec
  length_eq := by cases kind <;> rfl

end MaskKind

end IdVeil
