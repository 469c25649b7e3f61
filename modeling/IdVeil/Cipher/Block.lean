import IdVeil.Bytes

/-!
Blocks of sixteen bytes, read column by column. A block is exactly as good as its sixteen bytes:
`ofBytes_toBytes` and `toBytes_ofBytes`.
-/
namespace IdVeil

@[ext] structure Column where
  b₀ : UInt8
  b₁ : UInt8
  b₂ : UInt8
  b₃ : UInt8
deriving DecidableEq

@[ext] structure Block where
  c₀ : Column
  c₁ : Column
  c₂ : Column
  c₃ : Column
deriving DecidableEq

namespace Column

def zero : Column := ⟨0, 0, 0, 0⟩

instance : XorOp Column where
  xor x y := ⟨x.b₀ ^^^ y.b₀, x.b₁ ^^^ y.b₁, x.b₂ ^^^ y.b₂, x.b₃ ^^^ y.b₃⟩

def map (f : UInt8 → UInt8) (x : Column) : Column := ⟨f x.b₀, f x.b₁, f x.b₂, f x.b₃⟩

def toBytes (x : Column) : Bytes := [x.b₀, x.b₁, x.b₂, x.b₃]

theorem xor_def (x y : Column) :
    x ^^^ y = ⟨x.b₀ ^^^ y.b₀, x.b₁ ^^^ y.b₁, x.b₂ ^^^ y.b₂, x.b₃ ^^^ y.b₃⟩ := rfl

end Column

namespace Block

def length : Nat := 16

def zero : Block := ⟨.zero, .zero, .zero, .zero⟩

instance : XorOp Block where
  xor x y := ⟨x.c₀ ^^^ y.c₀, x.c₁ ^^^ y.c₁, x.c₂ ^^^ y.c₂, x.c₃ ^^^ y.c₃⟩

def map (f : Column → Column) (x : Block) : Block := ⟨f x.c₀, f x.c₁, f x.c₂, f x.c₃⟩

def toBytes (x : Block) : Bytes :=
  x.c₀.toBytes ++ x.c₁.toBytes ++ x.c₂.toBytes ++ x.c₃.toBytes

def ofBytes (bs : Bytes) : Block :=
  let column (i : Nat) : Column := ⟨bs.getD i 0, bs.getD (i + 1) 0, bs.getD (i + 2) 0, bs.getD (i + 3) 0⟩
  ⟨column 0, column 4, column 8, column 12⟩

theorem xor_def (x y : Block) :
    x ^^^ y = ⟨x.c₀ ^^^ y.c₀, x.c₁ ^^^ y.c₁, x.c₂ ^^^ y.c₂, x.c₃ ^^^ y.c₃⟩ := rfl

@[simp] theorem length_toBytes (x : Block) : x.toBytes.length = length := rfl

@[simp] theorem ofBytes_toBytes (x : Block) : ofBytes x.toBytes = x := rfl

theorem toBytes_ofBytes {bs : Bytes} (h : bs.length = length) : (ofBytes bs).toBytes = bs := by
  match bs, h with
  | [_, _, _, _, _, _, _, _, _, _, _, _, _, _, _, _], _ => rfl

theorem xor_xor_cancel (x y : Block) : x ^^^ y ^^^ y = x := by
  simp only [xor_def, Column.xor_def, Bytes.xor_cancel_right]

theorem xor_comm (x y : Block) : x ^^^ y = y ^^^ x := by
  simp only [xor_def, Column.xor_def, UInt8.xor_comm]

theorem xor_cancel_left (x y : Block) : x ^^^ (x ^^^ y) = y := by
  rw [xor_comm x y, xor_comm x, xor_xor_cancel]

end Block

end IdVeil
