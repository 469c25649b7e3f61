import IdVeil.Proofs.Engine.Checked
import IdVeil.Proofs.Mask.Cached

/-!
Masks that stop where a step cannot be taken: layouts that check what they look at, cut out and fill
in, codecs that check the length of their groups and build their alphabets, and checked engines under
them. A mask whose derived keys belong to its ring never stops, whatever id or text it is given and
whatever its cache holds (`IdMask.mask?_eq`, `IdMask.unmask?_eq`).
-/
namespace IdVeil

namespace Bytes

/-- The string with its end replaced, if it is long enough. -/
def fillEnd? (last bs : Bytes) : Option Bytes :=
  if last.length ≤ bs.length then some (bs.take (bs.length - last.length) ++ last) else none

theorem fillEnd?_eq {last bs : Bytes} (h : last.length ≤ bs.length) :
    fillEnd? last bs = some (bs.take (bs.length - last.length) ++ last) := if_pos h

end Bytes

namespace Layout

/-- The place of the first byte that is kept, sought from a place on. Both bytes that are compared
must be there. -/
def stripStart? (sign : UInt8) (bs : Bytes) (start : Nat) : Option Nat :=
  if start < bs.length - 1 then do
    let first ← bs[start]?
    if first = sign then
      let next ← bs[start + 1]?
      if next &&& 0x80 = sign &&& 0x80 then stripStart? sign bs (start + 1) else some start
    else some start
  else some start
termination_by bs.length - start

def minimalTwosComplement? (x : Int128) : Option Bytes := do
  let bs := wordToBytes 16 x.toBitVec
  let start ← stripStart? (signByte x.toInt) bs 0
  bs.back? start

def bigIntegerToBytes? (x : Int128) : Option (Except Error Bytes) := do
  let digits ← minimalTwosComplement? x
  if bigIntegerField < digits.length then some (.error (.invalidId .bigIntegerTooLong))
  else
    let row ← Bytes.fillEnd? digits (UInt8.ofNat digits.length :: Bytes.zeros bigIntegerField)
    some (.ok row)

def bigIntegerOfBytes? (bs : Bytes) : Option (Except Error Int128) := do
  let length ← bs.head?
  let n := length.toNat
  if 1 ≤ n ∧ n ≤ bigIntegerField then
    let digits ← bs.back? (1 + bigIntegerField - n)
    let first ← digits.head?
    let fill : UInt8 := if first &&& 0x80 ≠ 0 then 0xff else 0
    let wide ← Bytes.fillEnd? digits (List.replicate 16 fill)
    some (.ok ⟨wordOfBytes 16 wide⟩)
  else some (.error (.invalidId .bigIntegerLength))

def toBytes? : (layout : Layout) → layout.Id → Option (Except Error Bytes)
  | bigInteger, x => bigIntegerToBytes? x
  | layout, x => some (layout.toBytes x)

def read? : (layout : Layout) → (bs : Bytes) → bs.length = layout.byteLength →
    Option (Except Error layout.Id)
  | int64Pair, bs, _ => do
    let first ← bs.front? 8
    let second ← bs.back? 8
    let first ← first.exactly? 8
    let second ← second.exactly? 8
    some (.ok (int64OfBytes first, int64OfBytes second))
  | bigInteger, bs, _ => bigIntegerOfBytes? bs
  | layout, bs, h => some (layout.read bs h)

/-- Bytes of the right length are copied to a place of that length. -/
def ofBytes? (layout : Layout) (bs : Bytes) : Option (Except Error layout.Id) :=
  if h : bs.length = layout.byteLength then do
    let _copy ← bs.exactly? layout.byteLength
    layout.read? bs h
  else some (.error (.inputLength layout.byteLength bs.length))

/-- The search by places strips what the recursion on the bytes strips. -/
theorem exists_stripStart? (sign : UInt8) {bs rest : Bytes} {start : Nat}
    (left : bs.drop start = rest) (nonempty : rest ≠ []) :
    ∃ n, stripStart? sign bs start = some n ∧ n ≤ bs.length ∧ bs.drop n = stripSign sign rest := by
  induction rest generalizing start with
  | nil => exact absurd rfl nonempty
  | cons a rest ih =>
    have length := congrArg List.length left
    have first : bs[start]? = some a := by
      rw [← Nat.add_zero start, ← List.getElem?_drop, left, List.getElem?_cons_zero]
    cases rest with
    | nil =>
      simp only [List.length_drop, List.length_singleton] at length
      refine ⟨start, ?_, by omega, left⟩
      rw [stripStart?, if_neg (by omega)]
    | cons b rest =>
      simp only [List.length_drop, List.length_cons] at length
      have next : bs[start + 1]? = some b := by
        rw [← List.getElem?_drop, left, List.getElem?_cons_succ, List.getElem?_cons_zero]
      have later : bs.drop (start + 1) = b :: rest := by
        rw [← List.drop_drop, left, List.drop_one, List.tail_cons]
      rw [stripStart?, if_pos (by omega), first, stripSign]
      simp only [Option.bind_eq_bind, Option.bind_some, next]
      by_cases repeats : a = sign ∧ b &&& 0x80 = sign &&& 0x80
      · rw [if_pos repeats.1, if_pos repeats.2, if_pos repeats]
        exact ih later (List.cons_ne_nil _ _)
      · refine ⟨start, ?_, by omega, left.trans (if_neg repeats).symm⟩
        split
        · next same => exact if_neg fun top => repeats ⟨same, top⟩
        · rfl

theorem minimalTwosComplement?_eq (x : Int128) :
    minimalTwosComplement? x = some (minimalTwosComplement x) := by
  have nonempty : wordToBytes 16 x.toBitVec ≠ [] :=
    List.length_pos_iff.mp (by rw [length_wordToBytes]; decide)
  obtain ⟨start, found, within, kept⟩ :=
    exists_stripStart? (signByte x.toInt) (List.drop_zero (l := wordToBytes 16 x.toBitVec)) nonempty
  rw [minimalTwosComplement?, found]
  simp only [Option.bind_eq_bind, Option.bind_some]
  rw [Bytes.back?_eq within, kept, minimalTwosComplement]

theorem bigIntegerToBytes?_eq (x : Int128) :
    bigIntegerToBytes? x = some (bigIntegerToBytes x) := by
  rw [bigIntegerToBytes?, bigIntegerToBytes, minimalTwosComplement?_eq]
  simp only [Option.bind_eq_bind, Option.bind_some]
  generalize minimalTwosComplement x = digits
  split
  · rfl
  · next short =>
    have front : (UInt8.ofNat digits.length :: Bytes.zeros bigIntegerField).length -
        digits.length = bigIntegerField - digits.length + 1 := by
      rw [List.length_cons, Bytes.length_zeros]
      omega
    have zeros : (Bytes.zeros bigIntegerField).take (bigIntegerField - digits.length) =
        Bytes.zeros (bigIntegerField - digits.length) := by
      rw [Bytes.zeros, List.take_replicate, Nat.min_eq_left (Nat.sub_le _ _)]
      rfl
    rw [Bytes.fillEnd?_eq, front, List.take_succ_cons, zeros]
    · rfl
    · rw [List.length_cons, Bytes.length_zeros]
      omega

theorem bigIntegerOfBytes?_eq {bs : Bytes} (length : bs.length = 16) :
    bigIntegerOfBytes? bs = some (bigIntegerOfBytes bs) := by
  rw [bigIntegerOfBytes?, bigIntegerOfBytes, Bytes.head?_eq_headD (by omega)]
  simp only [Option.bind_eq_bind, Option.bind_some]
  split
  · rename_i bounds
    have field : 1 + bigIntegerField = 16 := rfl
    have digits : (bs.drop (1 + bigIntegerField - (bs.headD 0).toNat)).length =
        (bs.headD 0).toNat := by
      rw [List.length_drop]
      omega
    rw [Bytes.back?_eq (by omega)]
    simp only [Option.bind_some]
    rw [Bytes.head?_eq_headD (by omega)]
    simp only [Option.bind_some]
    rw [Bytes.fillEnd?_eq, List.length_replicate, List.take_replicate,
      Nat.min_eq_left (Nat.sub_le _ _)]
    · rfl
    · rw [List.length_replicate]
      omega
  · rfl

theorem toBytes?_eq (layout : Layout) (id : layout.Id) :
    layout.toBytes? id = some (layout.toBytes id) := by
  cases layout with
  | bigInteger => exact bigIntegerToBytes?_eq id
  | _ => rfl

theorem read?_int64Pair {bs : Bytes} (h : bs.length = int64Pair.byteLength) :
    int64Pair.read? bs h = some (int64Pair.read bs h) := by
  have long : 8 ≤ bs.length := by
    rw [h]
    decide
  have front : (bs.take 8).length = 8 := List.length_take_of_le long
  have back : (bs.drop 8).length = 8 := by
    rw [List.length_drop, h]
    rfl
  change (bs.front? 8).bind _ = _
  rw [Bytes.front?_eq long, Bytes.back?_eq long]
  simp only [Option.bind_eq_bind, Option.bind_some, Bytes.exactly?_eq front, Bytes.exactly?_eq back]
  rfl

theorem ofBytes?_eq (layout : Layout) (bs : Bytes) :
    layout.ofBytes? bs = some (layout.ofBytes bs) := by
  have read (h : bs.length = layout.byteLength) :
      layout.read? bs h = some (layout.read bs h) := by
    cases layout with
    | int64Pair => exact read?_int64Pair h
    | bigInteger => exact bigIntegerOfBytes?_eq h
    | _ => rfl
  rw [ofBytes?, ofBytes]
  split
  · rename_i length
    rw [Bytes.exactly?_eq length]
    exact read length
  · rfl

end Layout

/-- The alphabet when a text is written or read in it. The one of digits and capitals is only built
then, from its symbols. -/
def Alphabet.built? (a : Alphabet) : Option Alphabet :=
  if a = cleanBase32 then (ofSymbols a.symbols).toOption else some a

theorem Alphabet.built?_eq (a : Alphabet) : a.built? = some a := by
  unfold built?
  split
  · next same =>
    subst same
    rfl
  · rfl

namespace Codec

/-- The text of a codec, as long as there is something in each group. -/
def Form.encode? : Form → Bytes → Option (List Char)
  | plain a, bs => a.built?.map (·.encode bs)
  | grouped inner size separator, bs => do
    let text ← inner.encode? bs
    if 0 < size then some (separator.intercalate (pieces size text)) else none

def Form.decode? : Form → List Char → Option (Option Bytes)
  | plain a, text => a.built?.map (·.decode text)
  | grouped inner _ separator, text => inner.decode? (removeAll separator text)

def encode? (c : Codec) (bs : Bytes) : Option String := (c.form.encode? bs).map .ofList

def decode? (c : Codec) (text : String) : Option (Except Error Bytes) := do
  match ← c.form.decode? text.toList with
  | some bs => some (.ok bs)
  | none => some (.error .decodingFailed)

theorem Form.encode?_eq {form : Form} (wf : form.WellFormed) (bs : Bytes) :
    form.encode? bs = some (form.encode bs) := by
  induction form with
  | plain a =>
    rw [Form.encode?, a.built?_eq]
    rfl
  | grouped inner size separator ih =>
    rw [Form.encode?, ih wf.inner_wellFormed]
    exact if_pos wf.size_pos

theorem Form.decode?_eq (form : Form) (text : List Char) :
    form.decode? text = some (form.decode text) := by
  induction form generalizing text with
  | plain a =>
    rw [Form.decode?, a.built?_eq]
    rfl
  | grouped inner size separator ih => exact ih _

theorem encode?_eq (c : Codec) (bs : Bytes) : c.encode? bs = some (c.encode bs) := by
  rw [encode?, Form.encode?_eq c.wellFormed]
  rfl

theorem decode?_eq (c : Codec) (text : String) : c.decode? text = some (c.decode text) := by
  rw [decode?, decode, Form.decode?_eq]
  simp only [Option.bind_eq_bind, Option.bind_some]
  cases c.form.decode text.toList with
  | none => rfl
  | some bs => rfl

end Codec

namespace IdMask

variable {layout : Layout}

def produce? (m : IdMask layout) (ring : KeyRing) (memo : Memo Bytes) (noise : Noise)
    (id : Bytes) : Option (Outcome (Memo Bytes) String) := do
  let made ← m.engine.mask? ring memo noise id
  match made.result with
  | .error e => some ⟨.error e, made.state, made.events⟩
  | .ok envelope =>
    let token ← m.codec.encode? envelope
    some ⟨.ok token, made.state, made.events⟩

def accept? (m : IdMask layout) (ring : KeyRing) (memo : Memo Bytes) (token : String) :
    Option (Outcome (Memo Bytes) (Bytes × layout.Id)) := do
  match ← m.codec.decode? token with
  | .error e => some (.fail e memo)
  | .ok envelope =>
    let opened ← m.engine.unmask? ring memo envelope
    match opened.result with
    | .error e => some ⟨.error e, opened.state, opened.events⟩
    | .ok bytes =>
      let id ← layout.ofBytes? bytes
      some ⟨id.map fun id => (bytes, id), opened.state, opened.events⟩

variable {γ : Type} [ResultCache γ]

def mask? (m : IdMask layout) (engineRing ring : KeyRing) (state : MaskState γ) (noise : Noise)
    (id : layout.Id) : Option (Outcome (MaskState γ) String) := do
  match ← layout.toBytes? id with
  | .error e => some (.fail e state)
  | .ok bytes =>
    match m.liveCache? ring state with
    | none =>
      let made ← m.produce? engineRing state.memo noise bytes
      some ⟨made.result, { state with memo := made.state }, made.events⟩
    | some cache =>
      let found := ResultCache.findToken cache bytes
      match found.value with
      | some token => some ⟨.ok token, { state with cache := some found.cache }, found.events⟩
      | none =>
        let made ← m.produce? engineRing state.memo noise bytes
        let cache := match made.result with
          | .ok token => ResultCache.remember found.cache bytes token
          | .error _ => found.cache
        some ⟨made.result, ⟨made.state, some cache⟩, found.events ++ made.events⟩

def unmask? (m : IdMask layout) (engineRing ring : KeyRing) (state : MaskState γ)
    (token : String) : Option (Outcome (MaskState γ) layout.Id) :=
  if maxTokenLength < token.length then
    some (.fail (.inputLength maxTokenLength token.length) state)
  else match m.liveCache? ring state with
    | none => do
      let read ← m.accept? engineRing state.memo token
      some ⟨read.result.map Prod.snd, { state with memo := read.state }, read.events⟩
    | some cache =>
      let found := ResultCache.findId cache token
      match found.value with
      | some bytes => do
        let id ← layout.ofBytes? bytes
        some ⟨id, { state with cache := some found.cache }, found.events⟩
      | none => do
        let read ← m.accept? engineRing state.memo token
        let cache := match read.result with
          | .ok (bytes, _) => ResultCache.rememberRead found.cache token bytes
          | .error _ => found.cache
        some ⟨read.result.map Prod.snd, ⟨read.state, some cache⟩, found.events ++ read.events⟩

variable {m : IdMask layout} {engineRing ring : KeyRing} {memo : Memo Bytes}

theorem produce?_eq (sound : m.SoundMemo ring memo) (noise : Noise) (id : Bytes) :
    m.produce? ring memo noise id = some (m.produce ring memo noise id) := by
  rw [produce?, produce, Engine.mask?_eq sound]
  simp only [Option.bind_eq_bind, Option.bind_some, Codec.encode?_eq]
  cases (m.engine.mask ring memo noise id).result with
  | error e => rfl
  | ok envelope => rfl

theorem accept?_eq (sound : m.SoundMemo ring memo) (token : String) :
    m.accept? ring memo token = some (m.accept ring memo token) := by
  rw [accept?, accept, Codec.decode?_eq]
  simp only [Option.bind_eq_bind, Option.bind_some, Engine.unmask?_eq sound, Layout.ofBytes?_eq]
  cases m.codec.decode token with
  | error e => rfl
  | ok envelope =>
    simp only
    cases (m.engine.unmask ring memo envelope).result with
    | error e => rfl
    | ok bytes => rfl

variable {state : MaskState γ} (sound : m.SoundMemo engineRing state.memo)
include sound

theorem mask?_eq (noise : Noise) (id : layout.Id) :
    m.mask? engineRing ring state noise id = some (m.mask engineRing ring state noise id) := by
  rw [mask?, mask, Layout.toBytes?_eq]
  simp only [Option.bind_eq_bind, Option.bind_some, produce?_eq sound]
  cases layout.toBytes id with
  | error e => rfl
  | ok bytes =>
    simp only
    cases m.liveCache? ring state with
    | none => rfl
    | some cache =>
      simp only
      cases (ResultCache.findToken cache bytes).value with
      | some token => rfl
      | none => rfl

theorem unmask?_eq (token : String) :
    m.unmask? engineRing ring state token = some (m.unmask engineRing ring state token) := by
  rw [unmask?, unmask]
  simp only [Option.bind_eq_bind, Option.bind_some, accept?_eq sound, Layout.ofBytes?_eq]
  split
  · rfl
  · cases m.liveCache? ring state with
    | none => rfl
    | some cache =>
      simp only
      cases (ResultCache.findId cache token).value with
      | some bytes => rfl
      | none => rfl

end IdMask

end IdVeil
