import Mathlib.Data.List.Basic

/-! # Tagged records

A stream of records, each a tag and a value, up to a byte that ends it. A loop takes the records one after the other, each
with its effect on what is read into. -/

namespace Lib

/-- How records are taken: the tag that a byte stands for, the byte that ends them, and the value that goes with a tag. A
failure keeps what is left of the stream. -/
structure TagReader (τ σ : Type*) where
  ofByte : UInt8 → Option τ
  stop : UInt8
  read : τ → σ → List UInt8 → Except (List UInt8) (σ × List UInt8)

/-- A tag, its value as bytes, and what reading them does. -/
structure Record (τ σ : Type*) where
  tag : τ
  payload : List UInt8
  effect : σ → σ

variable {τ σ : Type*}

namespace TagReader

/-- The loop over the records, of so many rounds. -/
def loop (r : TagReader τ σ) : Nat → σ → List UInt8 → Except (List UInt8) (σ × List UInt8)
  | 0, _, stream => .error stream
  | _, s, [] => .ok (s, [])
  | rounds + 1, s, byte :: stream =>
    if byte = r.stop then .ok (s, stream)
    else
      match r.ofByte byte with
      | none => .error stream
      | some tag =>
        match r.read tag s stream with
        | .error stream => .error stream
        | .ok (s, stream) => loop r rounds s stream

/-- The loop to its end: each round takes a byte, so that the length of the stream bounds the rounds. -/
def readAll (r : TagReader τ σ) (s : σ) (stream : List UInt8) : Except (List UInt8) (σ × List UInt8) :=
  loop r (stream.length + 1) s stream

/-- The value of the record is read whatever comes after it. -/
def Takes (r : TagReader τ σ) (x : Record τ σ) : Prop :=
  ∀ s rest, r.read x.tag s (x.payload ++ rest) = .ok (x.effect s, rest)

end TagReader

namespace Record

def bytes (toByte : τ → UInt8) (x : Record τ σ) : List UInt8 := toByte x.tag :: x.payload

/-- What all records do, one after the other. -/
def effects (l : List (Record τ σ)) (s : σ) : σ := l.foldl (fun s x => x.effect s) s

@[simp] theorem effects_nil (s : σ) : effects ([] : List (Record τ σ)) s = s := rfl

@[simp] theorem effects_cons (x : Record τ σ) (l : List (Record τ σ)) (s : σ) :
    effects (x :: l) s = effects l (x.effect s) := rfl

@[simp] theorem effects_append (l l' : List (Record τ σ)) (s : σ) : effects (l ++ l') s = effects l' (effects l s) :=
  List.foldl_append

end Record

variable {r : TagReader τ σ} {toByte : τ → UInt8}

theorem TagReader.loop_records (hbyte : ∀ t, r.ofByte (toByte t) = some t) (hstop : ∀ t, toByte t ≠ r.stop)
    {l : List (Record τ σ)} (hl : ∀ x ∈ l, r.Takes x) (s : σ) (rest : List UInt8) {rounds : Nat}
    (hr : (l.flatMap (Record.bytes toByte)).length < rounds) :
    r.loop rounds s (l.flatMap (Record.bytes toByte) ++ r.stop :: rest) = .ok (Record.effects l s, rest) := by
  induction l generalizing s rounds with
  | nil =>
    obtain ⟨n, rfl⟩ := Nat.exists_eq_succ_of_ne_zero (Nat.ne_of_gt hr)
    rw [List.flatMap_nil, List.nil_append, loop, if_pos rfl, Record.effects_nil]
  | cons x l ih =>
    obtain ⟨n, rfl⟩ := Nat.exists_eq_succ_of_ne_zero (Nat.ne_of_gt (Nat.zero_lt_of_lt hr))
    rw [List.flatMap_cons, List.length_append, Record.bytes, List.length_cons] at hr
    rw [List.flatMap_cons, Record.bytes, List.append_assoc, List.cons_append, loop, if_neg (hstop x.tag), hbyte]
    dsimp only
    rw [hl x List.mem_cons_self s]
    exact ih (fun y hy => hl y (List.mem_cons_of_mem _ hy)) _ (by omega)

/-- A loop takes the records that were written up to the end that was written after them. -/
theorem TagReader.readAll_records (hbyte : ∀ t, r.ofByte (toByte t) = some t) (hstop : ∀ t, toByte t ≠ r.stop)
    {l : List (Record τ σ)} (hl : ∀ x ∈ l, r.Takes x) (s : σ) (rest : List UInt8) :
    r.readAll s (l.flatMap (Record.bytes toByte) ++ r.stop :: rest) = .ok (Record.effects l s, rest) := by
  refine loop_records hbyte hstop hl s rest ?_
  rw [List.length_append]
  omega

end Lib
