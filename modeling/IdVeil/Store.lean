import IdVeil.Mask.Basic
import IdVeil.Mask.Field

/-!
What masks share: key rings, caches given to several masks, and the global configuration with the
mask that fields use. A ring or cache is known by its place, so what one mask does to it is seen
by every other.
-/
namespace IdVeil

abbrev CacheId := Nat

inductive CacheSlot where
  | none
  | own (cache : MemoryCache)
  | shared (id : CacheId)

structure KeyedEngine where
  engine : Engine
  ring : RingId
  memo : Memo Bytes := []

/-- A mask in use. Its cache answers only while `ring` has its active key. -/
structure Masker (layout : Layout) where
  idMask : IdMask layout
  engineRing : RingId
  ring : RingId
  memo : Memo Bytes := []
  cache : CacheSlot

structure Store where
  rings : List KeyRing := []
  caches : List (Watched MemoryCache) := []
  global : Option Config := none
  /-- How often the global configuration was set. -/
  generation : UInt64 := 0
  fieldMasker : Option (UInt64 × Masker .uint64) := none

namespace Store

def ring (s : Store) (id : RingId) : KeyRing := s.rings.getD id .empty

def addRing (s : Store) (ring : KeyRing) : Outcome Store RingId :=
  ⟨.ok s.rings.length, { s with rings := s.rings ++ [ring] }, [ring.created]⟩

/-- Adds the ring of an active key and legacy keys. Where an id is used again there is none. -/
def addKeys (s : Store) (active : SecretKey) (legacy : List SecretKey) :
    Except ConfigError RingId × Store × List Event :=
  match KeyRing.ofKeys active legacy with
  | .error e => (.error e, s, [])
  | .ok ring =>
    let added := s.addRing ring
    (.ok s.rings.length, added.state, added.events)

/-- Clears a ring, for all that draw keys from it. -/
def clearRing (s : Store) (id : RingId) : Outcome Store Unit :=
  ⟨.ok (), { s with rings := s.rings.modify id KeyRing.clear }, [(s.ring id).cleared]⟩

def addCache (s : Store) (capacity : Capacity) : CacheId × Store :=
  (s.caches.length, { s with caches := s.caches ++ [⟨.empty capacity, []⟩] })

def updateCache (s : Store) (id : CacheId) (f : Watched MemoryCache → Watched MemoryCache) : Store :=
  { s with caches := s.caches.modify id f }

def findIn {α : Type} (s : Store) (id : CacheId)
    (look : Watched MemoryCache → Found (Watched MemoryCache) α) : Outcome Store (Option α) :=
  match s.caches[id]? with
  | none => ⟨.ok none, s, []⟩
  | some w =>
    let found := look w
    ⟨.ok found.value, s.updateCache id fun _ => found.cache, found.events⟩

def takeCalls (s : Store) : List (CacheId × CacheCall) × Store :=
  (s.caches.zipIdx.flatMap fun (w, id) => w.calls.map fun call => (id, call),
    { s with caches := s.caches.map fun w => { w with calls := [] } })

def setGlobal (s : Store) (config : Config) : Store :=
  { s with global := some config, generation := s.generation + 1 }

end Store

namespace KeyedEngine

def mask (k : KeyedEngine) (s : Store) (noise : Noise) (value : Bytes) : Outcome KeyedEngine Bytes :=
  let made := k.engine.mask (s.ring k.ring) k.memo noise value
  ⟨made.result, { k with memo := made.state }, made.events⟩

def unmask (k : KeyedEngine) (s : Store) (envelope : Bytes) : Outcome KeyedEngine Bytes :=
  let opened := k.engine.unmask (s.ring k.ring) k.memo envelope
  ⟨opened.result, { k with memo := opened.state }, opened.events⟩

def clear (k : KeyedEngine) (s : Store) : Outcome (KeyedEngine × Store) Unit :=
  let cleared := s.clearRing k.ring
  ⟨cleared.result, ({ k with memo := [] }, cleared.state), cleared.events⟩

end KeyedEngine

namespace Masker

/-- A mask of one kind under a configuration, with the cache that the configuration asks for. -/
def ofKind (kind : MaskKind) (config : Config) : Masker kind.layout where
  idMask := kind.mask config
  engineRing := config.ring
  ring := config.ring
  cache := match config.cacheSize with
    | none => .none
    | some n => .own (.empty n)

def custom (config : Config) (engine : Engine) (engineRing : RingId) (layout : Layout) :
    Except ConfigError (Masker layout) :=
  (IdMask.custom config engine layout).map fun idMask =>
    { idMask
      engineRing
      ring := config.ring
      cache := match config.cacheSize with
        | none => .none
        | some n => .own (.empty n) }

variable {layout : Layout} {α : Type}

def withCache (m : Masker layout) (id : CacheId) : Masker layout := { m with cache := .shared id }

def keyed (m : Masker layout) : KeyedEngine := ⟨m.idMask.engine, m.engineRing, m.memo⟩

/-- Runs an operation on the state of the mask, wherever its cache is. -/
def run (m : Masker layout) (s : Store)
    (f : {γ : Type} → [ResultCache γ] → MaskState γ → Outcome (MaskState γ) α) :
    Outcome (Masker layout × Store) α :=
  match m.cache with
  | .none =>
    let done := f (γ := MemoryCache) ⟨m.memo, none⟩
    ⟨done.result, ({ m with memo := done.state.memo }, s), done.events⟩
  | .own cache =>
    let done := f ⟨m.memo, some cache⟩
    let cache := done.state.cache.getD cache
    ⟨done.result, ({ m with memo := done.state.memo, cache := .own cache }, s), done.events⟩
  | .shared id =>
    let done := f ⟨m.memo, s.caches[id]?⟩
    let caches := s.caches.modify id done.state.cache.getD
    ⟨done.result, ({ m with memo := done.state.memo }, { s with caches }), done.events⟩

def mask (m : Masker layout) (s : Store) (noise : Noise) (id : layout.Id) :
    Outcome (Masker layout × Store) String :=
  m.run s fun state => m.idMask.mask (s.ring m.engineRing) (s.ring m.ring) state noise id

def unmask (m : Masker layout) (s : Store) (token : String) :
    Outcome (Masker layout × Store) layout.Id :=
  m.run s fun state => m.idMask.unmask (s.ring m.engineRing) (s.ring m.ring) state token

/-- Clears the ring that the engine draws keys from and empties the cache. -/
def clear (m : Masker layout) (s : Store) : Outcome (Masker layout × Store) Unit :=
  let cleared := s.clearRing m.engineRing
  let done := m.run cleared.state fun state =>
    ({ result := .ok (), state := IdMask.clearState state } : Outcome _ Unit)
  ⟨cleared.result, done.state, cleared.events ++ done.events⟩

end Masker

namespace Store

/-- The mask for fields: the last one as long as no configuration was set since, or else a new
one for the configuration now in force. -/
def currentMasker (s : Store) : Except Error (Masker .uint64) :=
  let fresh : Except Error (Masker .uint64) := match s.global with
    | none => .error (.config .missingGlobalConfig)
    | some config => .ok (.ofKind .uint64 config)
  match s.fieldMasker with
  | none => fresh
  | some (generation, m) => if generation = s.generation then .ok m else fresh

def runField {α : Type} (s : Store)
    (f : Masker .uint64 → Outcome (Masker .uint64 × Store) α) : Outcome Store α :=
  match s.currentMasker with
  | .error e => .fail e s
  | .ok m =>
    let done := f m
    ⟨done.result, { done.state.2 with fieldMasker := some (s.generation, done.state.1) }, done.events⟩

variable {marker : String}

def encodeField (s : Store) (noise : Noise) (f : Field marker) : Outcome Store String :=
  let done := s.runField fun m => m.mask s noise f.id
  ⟨done.result.map (Field.label marker ++ ·), done.state, done.events⟩

/-- The field with this public form. Its label is looked at before anything else. -/
def decodeField (s : Store) (marker text : String) : Outcome Store (Field marker) :=
  match Field.tokenOf marker text with
  | .error e => .fail e s
  | .ok token =>
    let done := s.runField fun m => m.unmask s token
    ⟨done.result.map fun (id : UInt64) => ⟨id⟩, done.state, done.events⟩

def serializeField (s : Store) (noise : Noise) (f : Field marker) :
    Except DocumentError String × Store × List Event :=
  let done := s.encodeField noise f
  (done.result.mapError .field, done.state, done.events)

def deserializeField (s : Store) (marker : String) (value : DocumentValue) :
    Except DocumentError (Field marker) × Store × List Event :=
  match value with
  | .text text =>
    let done := s.decodeField marker text
    (done.result.mapError .field, done.state, done.events)
  | _ => (.error (.notText value), s, [])

end Store

end IdVeil
