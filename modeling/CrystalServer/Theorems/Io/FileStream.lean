import CrystalServer.Theorems.Io.FileLoader
import CrystalServer.Theorems.Io.PropStream

/-! # File streams inside a node

`getString` takes the bytes of a text as they stand in the file. A stream therefore falls behind what was
written when a text has a mark in it, by one byte for each. It catches up in one case only: the text ends in its
only mark, an escape byte, and the first byte behind it that is not another escape byte is no mark. -/

namespace CrystalServer.FileStream
open Lib OTB

def reader : Reader FileStream where
  getU8 := getU8
  getU16 := getU16
  getU32 := getU32
  getU64 := getU64
  getString := getString

/-! ### How far a stream is behind -/

/-- Where a stream stands: in front of the next byte with its escape byte, one escape byte further back, or so that
    it never gets there. -/
inductive Lag where
  | none
  | escape
  | lost
  deriving DecidableEq

namespace Lag

/-- After a byte that is read with its escape byte. -/
def byte : Lag → UInt8 → Lag
  | none, _ => none
  | escape, b => if ¬IsMark b then none else if b = ESCAPE then escape else lost
  | lost, _ => lost

/-- After the bytes of a text, up to the first mark, which are read as they stand. -/
def ofText : List UInt8 → Lag
  | [] => none
  | b :: str => if ¬IsMark b then ofText str else if b = ESCAPE ∧ str = [] then escape else lost

/-- After the text behind its length: a longer one is refused. -/
def text : Lag → List UInt8 → Lag
  | none, str => if str.length < 8192 then ofText str else lost
  | _, _ => lost

def field (lag : Lag) : Field → Lag
  | .string str => ((LittleEndian.bytes 2 str.bytes.length).foldl byte lag).text str.bytes
  | f => f.bytes.foldl byte lag

/-- After a sequence of fields. -/
def fields (lag : Lag) (fs : List Field) : Lag := fs.foldl field lag

/-- The position that is left over before the next byte. -/
def of (x : List UInt8) : Lag := if x = [] then none else if x = [ESCAPE] then escape else lost

@[simp] theorem of_nil : of [] = none := rfl

theorem of_eq_none {x : List UInt8} (h : of x = none) : x = [] := by
  unfold of at h
  split at h
  · assumption
  · split at h <;> cases h

theorem of_eq_escape {x : List UInt8} (h : of x = escape) : x = [ESCAPE] := by
  unfold of at h
  split at h
  · cases h
  · split at h
    · assumption
    · cases h

theorem of_eq_lost {x : List UInt8} : of x = lost ↔ x ≠ [] ∧ x ≠ [ESCAPE] := by
  unfold of
  split
  · simp_all
  · split <;> simp_all

theorem of_lost_of_length {x : List UInt8} (h : 2 ≤ x.length) : of x = lost := by
  refine of_eq_lost.mpr ⟨?_, ?_⟩ <;> rintro rfl <;> simp at h

theorem foldl_byte_lost (bs : List UInt8) : bs.foldl byte lost = lost := by
  induction bs with
  | nil => rfl
  | cons b bs ih => exact ih

theorem field_lost (f : Field) : lost.field f = lost := by
  cases f <;> simp only [field, foldl_byte_lost, text]

theorem fields_lost (fs : List Field) : lost.fields fs = lost := by
  induction fs with
  | nil => rfl
  | cons f fs ih =>
    rw [fields, List.foldl_cons, field_lost]
    exact ih

/-- The length of a text that the stream can read ends the lag of an escape byte. -/
theorem foldl_byte_length_ne_escape {lag : Lag} {n : Nat} (h : n < 8192) :
    (LittleEndian.bytes 2 n).foldl byte lag ≠ escape := by
  have hhigh : ¬IsMark (UInt8.ofNat (n / 256)) := by
    have hn : (UInt8.ofNat (n / 256)).toNat < 32 := by
      rw [UInt8.toNat_ofNat']
      omega
    rintro (h | h | h) <;> rw [h] at hn <;> revert hn <;> decide
  have hstep (l : Lag) : l.byte (UInt8.ofNat (n / 256)) ≠ escape := by
    cases l with
    | none => nofun
    | lost => nofun
    | escape =>
      simp only [byte, hhigh, not_false_eq_true, if_true]
      nofun
  exact hstep _

end Lag

/-! ### One byte -/

/-- From the position on the data are `z`, up to the position `stop`, and then `after`. -/
structure Ahead (after : List UInt8) (stop : Nat) (s : FileStream) (z : List UInt8) : Prop where
  data : s.m_data.drop s.m_pos.toNat = z ++ after
  stop : s.m_pos.toNat + z.length = stop
  nodes : 0 < s.m_nodes

theorem escape_mark {b : UInt8} (h : IsMark b) (bs : List UInt8) : escape (b :: bs) = ESCAPE :: b :: escape bs :=
  stuff_special h

theorem escape_plain {b : UInt8} (h : ¬IsMark b) (bs : List UInt8) : escape (b :: bs) = b :: escape bs :=
  stuff_plain h

theorem ne_escape {b : UInt8} (h : ¬IsMark b) : b ≠ ESCAPE := by
  rintro rfl
  exact h isMark_escape

/-- A stream with something before the encoding of a byte, once it has that encoding behind it, is lost. -/
theorem lag_append_escape (y : List UInt8) (b : UInt8) : Lag.of (y ++ escape [b]) = .lost := by
  by_cases hb : IsMark b
  · rw [escape_mark hb]
    refine Lag.of_lost_of_length ?_
    rw [List.length_append, List.length_cons, List.length_cons]
    omega
  · rw [escape_plain hb]
    refine Lag.of_eq_lost.mpr ⟨by simp, fun h => ?_⟩
    have hl := congrArg List.getLast? h
    simp only [escape, stuff, List.getLast?_append, List.getLast?_singleton, Option.some_or, Option.some.injEq] at hl
    exact ne_escape hb hl

section Read
variable {after : List UInt8} {stop : Nat} {s : FileStream}

theorem at?_eq (s : FileStream) (pos : UInt32) : s.at? pos = (s.m_data.drop pos.toNat).head? := by
  rw [at?, List.head?_drop]

theorem toNat_add_one {pos : UInt32} (h : pos.toNat + 1 < 2 ^ 32) : (pos + 1).toNat = pos.toNat + 1 := by
  rw [UInt32.toNat_add, UInt32.toNat_one, Nat.mod_eq_of_lt h]

theorem Ahead.skip {b : UInt8} {z : List UInt8} (h : Ahead after stop s (b :: z)) (hstop : stop < 2 ^ 32) :
    Ahead after stop { s with m_pos := s.m_pos + 1 } z := by
  have hs := h.stop
  rw [List.length_cons] at hs
  have hpos : (s.m_pos + 1).toNat = s.m_pos.toNat + 1 := toNat_add_one (by omega)
  refine ⟨?_, ?_, h.nodes⟩
  · simp only [hpos]
    rw [← List.drop_drop, h.data, List.cons_append, List.drop_one, List.tail_cons]
  · simp only [hpos]
    omega

theorem Ahead.at? {b : UInt8} {z : List UInt8} (h : Ahead after stop s (b :: z)) : s.at? s.m_pos = some b := by
  rw [at?_eq, h.data]
  rfl

theorem readByte_plain {b : UInt8} {z : List UInt8} (hstop : stop < 2 ^ 32) (h : Ahead after stop s (b :: z))
    (hb : b ≠ ESCAPE) : ∃ s', readByte s = some (b, s') ∧ Ahead after stop s' z := by
  refine ⟨{ s with m_pos := s.m_pos + 1 }, ?_, h.skip hstop⟩
  simp only [readByte, h.at?, hb, if_false]

theorem readByte_escape {b : UInt8} {z : List UInt8} (hstop : stop < 2 ^ 32)
    (h : Ahead after stop s (ESCAPE :: b :: z)) : ∃ s', readByte s = some (b, s') ∧ Ahead after stop s' z := by
  have h₁ := h.skip hstop
  refine ⟨{ s with m_pos := s.m_pos + 1 + 1 }, ?_, h₁.skip hstop⟩
  have hat : s.at? (s.m_pos + 1) = some b := h₁.at?
  simp only [readByte, h.at?, if_true, hat]

/-- Reading one byte: the value is right unless the stream is lost. -/
theorem readByte_ahead {x : List UInt8} {b : UInt8} {bs : List UInt8} (hstop : stop < 2 ^ 32)
    (h : Ahead after stop s (x ++ escape (b :: bs))) :
    ∃ v s' x', readByte s = some (v, s') ∧ Ahead after stop s' (x' ++ escape bs) ∧
      Lag.of x' = (Lag.of x).byte b ∧ ((Lag.of x).byte b ≠ .lost → v = b) := by
  cases hx : Lag.of x with
  | none =>
    obtain rfl := Lag.of_eq_none hx
    by_cases hb : IsMark b
    · rw [escape_mark hb] at h
      obtain ⟨s', hr, ha⟩ := readByte_escape hstop h
      exact ⟨b, s', [], hr, ha, rfl, fun _ => rfl⟩
    · rw [escape_plain hb] at h
      obtain ⟨s', hr, ha⟩ := readByte_plain hstop h (ne_escape hb)
      exact ⟨b, s', [], hr, ha, rfl, fun _ => rfl⟩
  | escape =>
    obtain rfl := Lag.of_eq_escape hx
    by_cases hb : IsMark b
    · -- the escape byte of `b` is taken for the value
      rw [escape_mark hb] at h
      obtain ⟨s', hr, ha⟩ := readByte_escape hstop h
      refine ⟨ESCAPE, s', [b], hr, ha, ?_, ?_⟩
      · by_cases he : b = ESCAPE
        · simp [Lag.byte, Lag.of, he, isMark_escape]
        · simp [Lag.byte, Lag.of, he, hb]
      · intro hl
        by_contra he
        simp [Lag.byte, hb, Ne.symm he] at hl
    · rw [escape_plain hb] at h
      obtain ⟨s', hr, ha⟩ := readByte_escape hstop h
      exact ⟨b, s', [], hr, ha, by simp [Lag.byte, hb], fun _ => rfl⟩
  | lost =>
    obtain ⟨h₁, h₂⟩ := Lag.of_eq_lost.mp hx
    have hsplit : escape (b :: bs) = escape [b] ++ escape bs := stuff_append [b] bs
    rw [hsplit, ← List.append_assoc] at h
    cases x with
    | nil => exact absurd rfl h₁
    | cons a x =>
      by_cases ha : a = ESCAPE
      · subst ha
        cases x with
        | nil => exact absurd rfl h₂
        | cons c x =>
          obtain ⟨s', hr, ha⟩ := readByte_escape hstop h
          exact ⟨c, s', _, hr, ha, lag_append_escape x b, fun hl => absurd rfl hl⟩
      · obtain ⟨s', hr, ha⟩ := readByte_plain hstop h ha
        exact ⟨a, s', _, hr, ha, lag_append_escape x b, fun hl => absurd rfl hl⟩

/-- Reading the bytes of an integer. -/
theorem readBytes_ahead {x : List UInt8} {rest : List UInt8} (hstop : stop < 2 ^ 32) (bs : List UInt8)
    (h : Ahead after stop s (x ++ escape (bs ++ rest))) :
    ∃ vs s' x', readBytes bs.length s = some (vs, s') ∧ Ahead after stop s' (x' ++ escape rest) ∧
      Lag.of x' = bs.foldl Lag.byte (Lag.of x) ∧ (bs.foldl Lag.byte (Lag.of x) ≠ .lost → vs = bs) := by
  induction bs generalizing s x with
  | nil => exact ⟨[], s, x, rfl, h, rfl, fun _ => rfl⟩
  | cons b bs ih =>
    obtain ⟨v, s₁, x₁, hr₁, ha₁, hl₁, hv⟩ := readByte_ahead hstop h
    obtain ⟨vs, s₂, x₂, hr₂, ha₂, hl₂, hvs⟩ := ih ha₁
    refine ⟨v :: vs, s₂, x₂, ?_, ha₂, ?_, fun hl => ?_⟩
    · simp only [List.length_cons, readBytes, hr₁, hr₂]
    · rw [hl₂, hl₁, List.foldl_cons]
    · rw [List.foldl_cons] at hl
      have hne : (Lag.of x).byte b ≠ .lost := by
        intro he
        rw [he, Lag.foldl_byte_lost] at hl
        exact hl rfl
      rw [hv hne, hvs (by rwa [hl₁])]

theorem Ahead.length_le {z : List UInt8} (h : Ahead after stop s z) (hz : z ≠ []) :
    s.m_pos.toNat + z.length ≤ s.m_data.length := by
  have hd := congrArg List.length h.data
  have hlen := List.length_pos_of_ne_nil hz
  rw [List.length_drop, List.length_append] at hd
  omega

theorem Ahead.room {x rest : List UInt8} (bs : List UInt8) (h : Ahead after stop s (x ++ escape (bs ++ rest)))
    (hbs : bs ≠ []) :
    s.m_pos.toNat + bs.length ≤ s.m_data.length ∧ s.m_pos.toNat + bs.length ≤ stop := by
  have hb := List.length_pos_of_ne_nil hbs
  have he := length_le_escape (bs ++ rest)
  have hs := h.stop
  rw [List.length_append] at hs he
  have hz : x ++ escape (bs ++ rest) ≠ [] := by
    intro hz
    have := congrArg List.length hz
    rw [List.length_append, List.length_nil] at this
    omega
  have hd := h.length_le hz
  rw [List.length_append] at hd
  omega

/-- The accessors of two, four and eight bytes. -/
theorem getValue_ahead {x rest bs : List UInt8} (hstop : stop < 2 ^ 32) (hbs : bs ≠ [])
    (h : Ahead after stop s (x ++ escape (bs ++ rest))) :
    ∃ v s' x', getValue bs.length s = some (v, s') ∧ Ahead after stop s' (x' ++ escape rest) ∧
      Lag.of x' = bs.foldl Lag.byte (Lag.of x) ∧
      (bs.foldl Lag.byte (Lag.of x) ≠ .lost → v = LittleEndian.value bs) := by
  obtain ⟨vs, s', x', hr, ha, hl, hv⟩ := readBytes_ahead hstop bs h
  refine ⟨LittleEndian.value vs, s', x', ?_, ha, hl, fun hne => by rw [hv hne]⟩
  have hroom : ¬s.m_pos.toNat + bs.length > s.m_data.length := Nat.not_lt.mpr (h.room bs hbs).1
  have hnodes : decide (s.m_nodes > 0) = true := decide_eq_true h.nodes
  simp [getValue, read, hroom, hnodes, hr]

theorem getU8_eq_readByte {x rest : List UInt8} {b : UInt8} (hstop : stop < 2 ^ 32)
    (h : Ahead after stop s (x ++ escape (b :: rest))) : getU8 s = readByte s := by
  obtain ⟨hd, hs⟩ := Ahead.room [b] h (List.cons_ne_nil _ _)
  rw [List.length_singleton] at hd hs
  have hroom : ¬(s.m_pos + 1).toNat > s.m_data.length := by
    rw [toNat_add_one (by omega)]
    omega
  have hnodes : s.m_nodes > 0 := h.nodes
  simp only [getU8, hroom, if_false, readByte, hnodes, true_and]

/-- An accessor that makes its value from the bytes finds it unless the stream is lost. -/
theorem accessor_ahead {α : Type} (get : FileStream → Option (α × FileStream)) (ofNat : Nat → α) {v : α}
    {x rest bs : List UInt8} (hget : get s = (getValue bs.length s).map fun r => (ofNat r.1, r.2))
    (hv : ofNat (LittleEndian.value bs) = v) (hstop : stop < 2 ^ 32) (hbs : bs ≠ [])
    (h : Ahead after stop s (x ++ escape (bs ++ rest))) :
    ∃ v' s' x', get s = some (v', s') ∧ Ahead after stop s' (x' ++ escape rest) ∧
      Lag.of x' = bs.foldl Lag.byte (Lag.of x) ∧ (bs.foldl Lag.byte (Lag.of x) ≠ .lost → v' = v) := by
  obtain ⟨n, s', x', hr, ha, hl, hn⟩ := getValue_ahead hstop hbs h
  rw [hr, Option.map_some] at hget
  exact ⟨ofNat n, s', x', hget, ha, hl, fun hne => by rw [hn hne, hv]⟩

/-- What reading a field leaves. -/
def FieldAhead (after : List UInt8) (stop : Nat) (s : FileStream) (x rest : List UInt8) (f : Field) : Prop :=
  (∀ m, reader.ReadsField s m f →
      ∃ x', Ahead after stop m (x' ++ escape rest) ∧ Lag.of x' = (Lag.of x).field f) ∧
    ((Lag.of x).field f ≠ .lost → ∃ m, reader.ReadsField s m f)

theorem FieldAhead.of_accessor {α : Type} {get : FileStream → Option (α × FileStream)} {v v' : α}
    {x rest : List UInt8} {f : Field} {s' : FileStream} {x' : List UInt8}
    (hread : ∀ m, reader.ReadsField s m f ↔ get s = some (v, m)) (hr : get s = some (v', s'))
    (ha : Ahead after stop s' (x' ++ escape rest)) (hl : Lag.of x' = (Lag.of x).field f)
    (hv : (Lag.of x).field f ≠ .lost → v' = v) : FieldAhead after stop s x rest f := by
  refine ⟨fun m hm => ⟨x', ?_, hl⟩, fun hne => ⟨s', (hread s').mpr (by rw [hr, hv hne])⟩⟩
  have heq := hr.symm.trans ((hread m).mp hm)
  rwa [← (Prod.mk.inj (Option.some.inj heq)).2]

/-- An accessor of an integer. -/
theorem integer_ahead {x rest : List UInt8} {f : Field} (hf : ∀ str, f ≠ .string str) (hstop : stop < 2 ^ 32)
    (h : Ahead after stop s (x ++ escape (f.bytes ++ rest))) : FieldAhead after stop s x rest f := by
  cases f with
  | string str => exact absurd rfl (hf str)
  | u8 b =>
    have hb : (Field.u8 b).bytes = [b] := by simp [Field.bytes, LittleEndian.bytes]
    have hfield : (Lag.of x).field (.u8 b) = (Lag.of x).byte b := congrArg (List.foldl Lag.byte (Lag.of x)) hb
    rw [hb] at h
    obtain ⟨v, s', x', hr, ha, hl, hv⟩ := readByte_ahead hstop h
    rw [← getU8_eq_readByte hstop h] at hr
    exact .of_accessor (fun _ => Iff.rfl) hr ha (hl.trans hfield.symm) (hfield.symm ▸ hv)
  | u16 v =>
    obtain ⟨v', s', x', hr, ha, hl, hv⟩ := accessor_ahead getU16 .ofNat
      (by rw [LittleEndian.length_bytes]; rfl) (LittleEndian.value_bytes_uint16 v) hstop
      (by simp [LittleEndian.bytes]) h
    exact .of_accessor (fun _ => Iff.rfl) hr ha hl hv
  | u32 v =>
    obtain ⟨v', s', x', hr, ha, hl, hv⟩ := accessor_ahead getU32 .ofNat
      (by rw [LittleEndian.length_bytes]; rfl) (LittleEndian.value_bytes_uint32 v) hstop
      (by simp [LittleEndian.bytes]) h
    exact .of_accessor (fun _ => Iff.rfl) hr ha hl hv
  | u64 v =>
    obtain ⟨v', s', x', hr, ha, hl, hv⟩ := accessor_ahead getU64 .ofNat
      (by rw [LittleEndian.length_bytes]; rfl) (LittleEndian.value_bytes_uint64 v) hstop
      (by simp [LittleEndian.bytes]) h
    exact .of_accessor (fun _ => Iff.rfl) hr ha hl hv

/-! ### Texts -/

/-- As many bytes as follow the first are skipped: the last is left. -/
theorem drop_length_cons (a : UInt8) (str : List UInt8) :
    (a :: str).drop str.length = [(a :: str).getLast (List.cons_ne_nil _ _)] := by
  induction str generalizing a with
  | nil => rfl
  | cons b str ih =>
    rw [List.length_cons, List.drop_succ_cons, ih, List.getLast_cons (List.cons_ne_nil _ _)]

/-- A lost stream stays lost when it skips as many bytes as a text has. -/
theorem lag_drop_lost {x : List UInt8} (str : List UInt8) (hx : Lag.of x = .lost) :
    Lag.of ((x ++ escape str).drop str.length) = .lost := by
  have hlen : ((x ++ escape str).drop str.length).length =
      x.length + str.countP fun b => decide (IsMark b) := by
    rw [List.length_drop, List.length_append, escape, length_stuff]
    omega
  obtain ⟨h₁, h₂⟩ := Lag.of_eq_lost.mp hx
  by_cases h2 : 2 ≤ x.length + str.countP fun b => decide (IsMark b)
  · exact Lag.of_lost_of_length (hlen ▸ h2)
  · -- one byte before a text without marks
    obtain ⟨a, x, rfl⟩ := List.exists_cons_of_ne_nil h₁
    cases x with
    | nil =>
      rw [List.length_singleton] at h2
      have hplain : ∀ b ∈ str, ¬IsMark b := by
        have h0 : (str.countP fun b => decide (IsMark b)) = 0 := by omega
        intro b hb hm
        exact List.countP_eq_zero.mp h0 b hb (decide_eq_true hm)
      rw [escape, stuff_of_plain hplain, List.singleton_append, drop_length_cons]
      refine Lag.of_eq_lost.mpr ⟨List.cons_ne_nil _ _, fun h => ?_⟩
      have hlast := List.getLast_mem (List.cons_ne_nil a str)
      rw [(List.cons.inj h).1] at hlast
      rcases List.mem_cons.mp hlast with ha | hm
      · exact h₂ (by rw [ha])
      · exact hplain _ hm isMark_escape
    | cons b x =>
      simp only [List.length_cons] at h2
      omega

/-- Where a stream stands behind a text that it has begun to read at the right place. -/
theorem lag_drop_text (str : List UInt8) : Lag.of ((escape str).drop str.length) = Lag.ofText str := by
  induction str with
  | nil => rfl
  | cons b str ih =>
    by_cases hb : IsMark b
    · rw [escape_mark hb, List.length_cons, List.drop_succ_cons, Lag.ofText, if_neg (not_not.mpr hb)]
      cases str with
      | nil =>
        by_cases he : b = ESCAPE <;> simp [Lag.of, he, escape, stuff]
      | cons c str =>
        have hsplit : escape (c :: str) = escape [c] ++ escape str := stuff_append [c] str
        rw [List.length_cons, List.drop_succ_cons, hsplit, if_neg (by simp)]
        exact lag_drop_lost str (lag_append_escape [] c)
    · rw [escape_plain hb, List.length_cons, List.drop_succ_cons, ih, Lag.ofText, if_pos hb]

/-- The bytes of a text are read right unless the stream is lost behind it. -/
theorem take_text {str : List UInt8} (h : Lag.ofText str ≠ .lost) (rest : List UInt8) :
    (escape str ++ rest).take str.length = str := by
  induction str with
  | nil => rfl
  | cons b str ih =>
    by_cases hb : IsMark b
    · rw [Lag.ofText, if_neg (not_not.mpr hb)] at h
      split at h
      · rename_i he
        obtain ⟨rfl, rfl⟩ := he
        rfl
      · exact absurd rfl h
    · rw [Lag.ofText, if_pos hb] at h
      rw [escape_plain hb, List.cons_append, List.length_cons, List.take_succ_cons, ih h]

theorem toNat_add_toUInt32 {pos : UInt32} {len : UInt16} (h : pos.toNat + len.toNat < 2 ^ 32) :
    (pos + len.toUInt32).toNat = pos.toNat + len.toNat := by
  rw [UInt32.toNat_add, UInt16.toNat_toUInt32, Nat.mod_eq_of_lt h]

theorem Ahead.advance {z : List UInt8} (len : UInt16) (h : Ahead after stop s z) (hlen : len.toNat ≤ z.length)
    (hstop : stop < 2 ^ 32) : Ahead after stop { s with m_pos := s.m_pos + len.toUInt32 } (z.drop len.toNat) := by
  have hs := h.stop
  have hpos : (s.m_pos + len.toUInt32).toNat = s.m_pos.toNat + len.toNat := toNat_add_toUInt32 (by omega)
  refine ⟨?_, ?_, h.nodes⟩
  · simp only [hpos]
    rw [← List.drop_drop, h.data, List.drop_append_of_le_length hlen]
  · simp only [hpos, List.length_drop]
    omega

/-- The stream stands right, or is lost, behind the length of a text that it can read. -/
theorem lag_ne_escape {x x₁ : List UInt8} {n : Nat} (hn : n < 8192)
    (hl : Lag.of x₁ = (LittleEndian.bytes 2 n).foldl Lag.byte (Lag.of x)) : Lag.of x₁ ≠ .escape :=
  hl ▸ Lag.foldl_byte_length_ne_escape hn

theorem lag_text {x : List UInt8} (str : List UInt8) (hlen : str.length < 8192) (hx : Lag.of x ≠ .escape) :
    Lag.of ((x ++ escape str).drop str.length) = (Lag.of x).text str := by
  cases h : Lag.of x with
  | none =>
    obtain rfl := Lag.of_eq_none h
    rw [List.nil_append, lag_drop_text, Lag.text, if_pos hlen]
  | escape => exact absurd h hx
  | lost => exact lag_drop_lost str h

/-- A text that is read right leaves the stream where its bytes end. -/
theorem ahead_of_getString {x₁ rest str : List UInt8} {len : UInt16} {s₁ m : FileStream} (hstop : stop < 2 ^ 32)
    (hr : getU16 s = some (len, s₁)) (ha : Ahead after stop s₁ (x₁ ++ escape (str ++ rest)))
    (hm : getString s = some (str, m)) (hne : str.length < 8192 → Lag.of x₁ ≠ .escape) :
    ∃ x', Ahead after stop m (x' ++ escape rest) ∧ Lag.of x' = (Lag.of x₁).text str := by
  have hempty (he : some (([] : List UInt8), s₁) = some (str, m)) :
      ∃ x', Ahead after stop m (x' ++ escape rest) ∧ Lag.of x' = (Lag.of x₁).text str := by
    obtain ⟨rfl, rfl⟩ := Prod.mk.inj (Option.some.inj he)
    refine ⟨x₁, ha, ?_⟩
    have h := lag_text [] (by simp) (hne (by simp))
    rwa [escape, stuff, List.append_nil, List.length_nil, List.drop_zero] at h
  simp only [getString, hr] at hm
  split at hm
  · rename_i hlen
    split at hm
    · exact hempty hm
    · split at hm
      · cases hm
      · rename_i hroom hshort
        obtain ⟨hstr, rfl⟩ := Prod.mk.inj (Option.some.inj hm)
        have hlength : str.length = len.toNat := by
          rw [← hstr, List.length_take] at *
          omega
        have hlt : str.length < 8192 := by
          rw [hlength]
          exact UInt16.lt_iff_toNat_lt.mp hlen.2
        have hsplit : x₁ ++ escape (str ++ rest) = (x₁ ++ escape str) ++ escape rest := by
          rw [List.append_assoc, escape, stuff_append]
          rfl
        have hle : str.length ≤ (x₁ ++ escape str).length := by
          have := length_le_escape str
          rw [List.length_append]
          omega
        refine ⟨(x₁ ++ escape str).drop str.length, ?_, lag_text str hlt (hne hlt)⟩
        rw [hsplit] at ha
        have hadv := ha.advance len (by rw [List.length_append]; omega) hstop
        rwa [← hlength, List.drop_append_of_le_length hle] at hadv
  · exact hempty hm

/-- A text behind which the stream is not lost is read right. -/
theorem getString_of_text {rest : List UInt8} {str : Str} {s₁ : FileStream} (hstop : stop < 2 ^ 32)
    (hr : getU16 s = some (.ofNat str.bytes.length, s₁)) (ha : Ahead after stop s₁ (escape (str.bytes ++ rest)))
    (hlen : str.bytes.length < 8192) (htext : Lag.ofText str.bytes ≠ .lost) :
    ∃ m, getString s = some (str.bytes, m) := by
  have hlen16 : (UInt16.ofNat str.bytes.length).toNat = str.bytes.length := UInt16.toNat_ofNat_of_lt' str.fits
  by_cases h0 : str.bytes = []
  · exact ⟨s₁, by simp [getString, hr, h0]⟩
  · have hpos := List.length_pos_of_ne_nil h0
    have hle : UInt16.ofNat str.bytes.length > 0 ∧ UInt16.ofNat str.bytes.length < 8192 := by
      simp only [gt_iff_lt, UInt16.lt_iff_toNat_lt, hlen16]
      exact ⟨hpos, hlen⟩
    obtain ⟨hd, hs⟩ := Ahead.room (x := []) str.bytes ha h0
    have hadd : (s₁.m_pos + (UInt16.ofNat str.bytes.length).toUInt32).toNat =
        s₁.m_pos.toNat + str.bytes.length := by
      rw [toNat_add_toUInt32 (by omega), hlen16]
    have htake : (s₁.m_data.drop s₁.m_pos.toNat).take str.bytes.length = str.bytes := by
      rw [ha.data, escape, stuff_append, List.append_assoc]
      exact take_text htext _
    refine ⟨{ s₁ with m_pos := s₁.m_pos + (UInt16.ofNat str.bytes.length).toUInt32 }, ?_⟩
    simp only [getString, hr, hle, and_self, if_true, hadd, hlen16, htake]
    rw [if_neg (by omega), if_neg (by omega)]

theorem string_ahead {x rest : List UInt8} {str : Str} (hstop : stop < 2 ^ 32)
    (h : Ahead after stop s (x ++ escape ((Field.string str).bytes ++ rest))) :
    FieldAhead after stop s x rest (.string str) := by
  rw [Field.bytes, List.append_assoc] at h
  obtain ⟨len, s₁, x₁, hr, ha, hl, hv⟩ := accessor_ahead (v := UInt16.ofNat str.bytes.length) getU16
    UInt16.ofNat (by rw [LittleEndian.length_bytes]; rfl) (by rw [LittleEndian.value_bytes str.fits]) hstop
    (by simp [LittleEndian.bytes]) h
  have hfield : (Lag.of x).field (.string str) = (Lag.of x₁).text str.bytes := by rw [hl]; rfl
  refine ⟨fun m hm => ?_, fun hne => ?_⟩
  · rw [hfield]
    exact ahead_of_getString hstop hr ha hm fun hlt => lag_ne_escape hlt hl
  · rw [hfield] at hne
    cases hx : Lag.of x₁ with
    | none =>
      obtain rfl := Lag.of_eq_none hx
      rw [hx, Lag.text] at hne
      split at hne
      · rename_i hlen
        rw [hv (by rw [← hl, hx]; rintro ⟨⟩)] at hr
        exact getString_of_text hstop hr ha hlen hne
      · exact absurd rfl hne
    | escape => exact absurd (by rw [hx]; rfl) hne
    | lost => exact absurd (by rw [hx]; rfl) hne

/-! ### A sequence of fields -/

theorem field_ahead {x rest : List UInt8} {f : Field} (hstop : stop < 2 ^ 32)
    (h : Ahead after stop s (x ++ escape (f.bytes ++ rest))) : FieldAhead after stop s x rest f := by
  cases f with
  | string str => exact string_ahead hstop h
  | _ => exact integer_ahead nofun hstop h

/-- Reading fields ends at the byte after the last exactly where the stream is not behind there. -/
theorem reads_ahead_iff {x : List UInt8} {fields : List Field} (hstop : stop < 2 ^ 32)
    (h : Ahead after stop s (x ++ escape (Field.allBytes fields))) :
    (∃ s', reader.Reads fields s s' ∧ s'.tell.toNat = stop) ↔ (Lag.of x).fields fields = .none := by
  induction fields generalizing s x with
  | nil =>
    have hs := h.stop
    rw [Field.allBytes_nil, List.length_append] at hs
    simp only [escape, stuff, List.length_nil] at hs
    constructor
    · rintro ⟨s', rfl, ht⟩
      rw [tell] at ht
      have hx : x.length = 0 := by omega
      rw [List.length_eq_zero_iff.mp hx]
      rfl
    · intro hl
      rw [Lag.of_eq_none hl, List.length_nil] at hs
      exact ⟨s, rfl, hs⟩
  | cons f fs ih =>
    rw [Field.allBytes_cons] at h
    obtain ⟨hstep, hread⟩ := field_ahead hstop h
    constructor
    · rintro ⟨s', ⟨m, hm, hs'⟩, ht⟩
      obtain ⟨x', ha, hl⟩ := hstep m hm
      rw [Lag.fields, List.foldl_cons, ← hl]
      exact (ih ha).mp ⟨s', hs', ht⟩
    · intro hl
      rw [Lag.fields, List.foldl_cons] at hl
      have hne : (Lag.of x).field f ≠ .lost := by
        intro he
        rw [he] at hl
        have hlost := Lag.fields_lost fs
        rw [Lag.fields, hl] at hlost
        cases hlost
      obtain ⟨m, hm⟩ := hread hne
      obtain ⟨x', ha, hlx⟩ := hstep m hm
      rw [← hlx] at hl
      obtain ⟨s', hs', ht⟩ := (ih ha).mpr hl
      exact ⟨s', ⟨m, hm, hs'⟩, ht⟩

end Read

theorem ahead_start (before after z : List UInt8) (m_pos m_nodes : UInt32)
    (hpos : m_pos.toNat = before.length) (hnodes : 0 < m_nodes) :
    Ahead after (before.length + z.length) ⟨before ++ (z ++ after), m_pos, m_nodes⟩ z where
  data := by
    simp only [hpos]
    rw [List.drop_left]
  stop := by simp only [hpos]
  nodes := hnodes

/-- A stream inside a node gives back the fields written there, and stands behind the last, exactly where the fields
    end below `2 ^ 32` and leave it behind nowhere. A property stream on the same bytes always gives them back. -/
theorem reads_iff (before after : List UInt8) (m_pos m_nodes : UInt32) (fields : List Field)
    (hpos : m_pos.toNat = before.length) (hnodes : 0 < m_nodes) :
    ((∃ s', reader.Reads fields ⟨before ++ (escape (Field.allBytes fields) ++ after), m_pos, m_nodes⟩ s' ∧
        s'.tell.toNat = before.length + (escape (Field.allBytes fields)).length) ↔
      before.length + (escape (Field.allBytes fields)).length < 2 ^ 32 ∧ Lag.none.fields fields = .none) ∧
    ∀ type children, ∃ props,
      (Loader.getProps (before ++ (escape (Field.allBytes fields) ++ after))
        (.mk type before.length (before.length + (escape (Field.allBytes fields)).length) children)).getD [] =
          props ∧
      PropStream.reader.Reads fields props [] := by
  have ha := ahead_start before after (escape (Field.allBytes fields)) m_pos m_nodes hpos hnodes
  refine ⟨⟨?_, ?_⟩, fun type children => ⟨Field.allBytes fields, getProps_node ?_, ?_⟩⟩
  · rintro ⟨s', hr, ht⟩
    have hstop : before.length + (escape (Field.allBytes fields)).length < 2 ^ 32 := ht ▸ s'.tell.toNat_lt
    exact ⟨hstop, (reads_ahead_iff (x := []) hstop ha).mp ⟨s', hr, ht⟩⟩
  · rintro ⟨hstop, hl⟩
    exact (reads_ahead_iff (x := []) hstop ha).mpr hl
  · rw [List.drop_left]
    exact List.prefix_append _ _
  · have h := PropStream.reads fields []
    rwa [List.append_nil] at h

/-- Integers with marks in them, a text without marks and one that ends in an escape byte before a plain byte. -/
def escapedFields : List Field :=
  [.u16 0xFDFE, .string ⟨[0x61, 0x62], by decide⟩, .string ⟨[0x61, 0xFD], by decide⟩, .u8 0xFD, .u8 7]

theorem reads_escapedFields :
    ∃ s', reader.Reads escapedFields
        ⟨[START, 1] ++ (escape (Field.allBytes escapedFields) ++ [END]), 2, 1⟩ s' ∧
      s'.tell.toNat = [START, 1].length + (escape (Field.allBytes escapedFields)).length :=
  (reads_iff [START, 1] [END] 2 1 escapedFields (by decide) (by decide)).1.mpr (by decide)

/-- The text of the single byte `0xFE`. -/
def markText : List Field := [.string ⟨[START], by decide⟩]

/-- It is read as `0xFD`. -/
theorem reads_markText_fails :
    ¬∃ s', reader.Reads markText ⟨[START, 1] ++ (escape (Field.allBytes markText) ++ [END]), 2, 1⟩ s' ∧
      s'.tell.toNat = [START, 1].length + (escape (Field.allBytes markText)).length := by
  intro h
  have ha := ahead_start [START, 1] [END] (escape (Field.allBytes markText)) 2 1 rfl (by decide)
  exact absurd ((reads_ahead_iff (x := []) (by decide) ha).mp h) (by decide)

end CrystalServer.FileStream
