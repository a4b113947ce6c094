import CrystalServer.Lib.Stuffing
import CrystalServer.Io.FileLoader

/-! # Parsing of OTB files

The bytes of a node are its marks and between them text in which every mark is escaped. `parseTree` returns
on exactly the files that are such a node and more text behind it, and what it returns is the tree of the
marks. A tree that is laid out with its properties escaped is read back as it was. -/

namespace CrystalServer.OTB
open Lib Loader

/-- The bytes that are escaped inside a node. -/
def IsMark (b : UInt8) : Prop := b = ESCAPE ∨ b = START ∨ b = END

instance : DecidablePred IsMark := fun b => inferInstanceAs (Decidable (b = ESCAPE ∨ b = START ∨ b = END))

theorem isMark_escape : IsMark ESCAPE := Or.inl rfl

/-- The rule that each mark inside a node has an escape byte before it. -/
def escape (bs : List UInt8) : List UInt8 := stuff ESCAPE IsMark bs

theorem length_le_escape (bs : List UInt8) : bs.length ≤ (escape bs).length := by
  rw [escape, length_stuff]
  exact Nat.le_add_right ..

/-! ### Trees of a file -/

/-- A tree of nodes as it is written. -/
inductive Tree where
  | node (type : UInt8) (props : List UInt8) (children : List Tree)

namespace Tree

mutual
/-- START, type, escaped properties, children, END. -/
def layout : Tree → List UInt8
  | node type props children => START :: type :: (escape props ++ layoutAll children ++ [END])

def layoutAll : List Tree → List UInt8
  | [] => []
  | t :: ts => layout t ++ layoutAll ts
end

mutual
/-- What a reader of the returned tree finds: the types, the shape, and the properties that `getProps` gives. -/
def ofNode (fileContents : List UInt8) : Node → Tree
  | .mk type propsBegin propsEnd children =>
    node type ((getProps fileContents (.mk type propsBegin propsEnd children)).getD [])
      (ofNodes fileContents children)

def ofNodes (fileContents : List UInt8) : List Node → List Tree
  | [] => []
  | n :: ns => ofNode fileContents n :: ofNodes fileContents ns
end

end Tree

/-- Bytes in which every mark is escaped. -/
inductive Unmarked : List UInt8 → Prop
  | nil : Unmarked []
  | plain {b : UInt8} {bs : List UInt8} : ¬IsMark b → Unmarked bs → Unmarked (b :: bs)
  | escaped {b : UInt8} {bs : List UInt8} : Unmarked bs → Unmarked (ESCAPE :: b :: bs)

/-- Bytes without marks. -/
structure Text where
  bytes : List UInt8
  unmarked : Unmarked bytes

/-- What stands between the type of a node and its END: text, or text, a child and what follows the child. -/
inductive Content where
  | text (u : Text)
  | child (u : Text) (type : UInt8) (inner after : Content)

namespace Content

def bytes : Content → List UInt8
  | text u => u.bytes
  | child u type inner after => u.bytes ++ START :: type :: (inner.bytes ++ END :: after.bytes)

/-- The text before the first child: the properties. -/
def props : Content → Text
  | text u => u
  | child u _ _ _ => u

/-- The nodes of the children of a content that starts at position `it`. -/
def nodes : Content → Nat → List Node
  | text _, _ => []
  | child u type inner after, it =>
    let start := it + u.bytes.length + 2
    .mk type start (start + inner.props.bytes.length) (inner.nodes start) ::
      after.nodes (start + inner.bytes.length + 1)

/-- The node of a content that starts at position `it`. -/
def node (type : UInt8) (it : Nat) (c : Content) : Node :=
  .mk type it (it + c.props.bytes.length) (c.nodes it)

end Content

/-- The bytes behind the identifier are the node, and text behind it. -/
def Encloses (fileContents : List UInt8) (node : Node) : Prop :=
  ∃ (type : UInt8) (c : Content) (u : Text),
    fileContents.drop identifierSize = START :: type :: (c.bytes ++ END :: u.bytes) ∧
      node = c.node type (identifierSize + 2)

/-! ### The loop of the parser -/

section Loop
variable {it : Nat} {left : List UInt8} {s : ParseState}

attribute [local simp] parseLoop

theorem parseLoop_plain {b : UInt8} (h : ¬IsMark b) : parseLoop it (b :: left) s = parseLoop (it + 1) left s := by
  simp only [IsMark, not_or] at h
  obtain ⟨he, hs, hend⟩ := h
  cases left <;> simp [hs, hend, he]

theorem parseLoop_escape (b : UInt8) : parseLoop it (ESCAPE :: b :: left) s = parseLoop (it + 2) left s := by
  have hs : ESCAPE ≠ START := by decide
  have he : ESCAPE ≠ END := by decide
  simp [hs, he]

theorem parseLoop_start (type : UInt8) (root cur : Node) (stack : List Node) :
    parseLoop it (START :: type :: left) ⟨root, cur :: stack⟩ =
      parseLoop (it + 2) left ⟨root, .mk type (it + 2) 0 [] :: endProps cur it :: stack⟩ := by
  simp

theorem parseLoop_end (root cur : Node) (stack : List Node) :
    parseLoop it (END :: left) ⟨root, cur :: stack⟩ =
      parseLoop (it + 1) left (.pop (endProps cur it) stack root) := by
  have hs : END ≠ START := by decide
  cases left <;> simp [hs]

theorem parseLoop_start_nil (root : Node) :
    parseLoop it (START :: left) ⟨root, []⟩ = .error .invalidOTBFormat := by
  cases left <;> simp

theorem parseLoop_end_nil (root : Node) : parseLoop it (END :: left) ⟨root, []⟩ = .error .invalidOTBFormat := by
  have hs : END ≠ START := by decide
  cases left <;> simp [hs]

theorem parseLoop_escape_nil : parseLoop it [ESCAPE] s = .error .invalidOTBFormat := by
  have hs : ESCAPE ≠ START := by decide
  have he : ESCAPE ≠ END := by decide
  simp [hs, he]

/-- Text is skipped. -/
theorem parseLoop_unmarked {u : List UInt8} (h : Unmarked u) :
    parseLoop it (u ++ left) s = parseLoop (it + u.length) left s := by
  induction h generalizing it with
  | nil => rfl
  | plain hb _ ih =>
    rw [List.cons_append, parseLoop_plain hb, ih, List.length_cons]
    congr 1
    omega
  | escaped _ ih =>
    rw [List.cons_append, List.cons_append, parseLoop_escape, ih, List.length_cons, List.length_cons]
    congr 1
    omega

/-- The node after a content that starts at `it` and the END behind it. -/
def Node.close (cur : Node) (it : Nat) (c : Content) : Node :=
  .mk cur.type cur.propsBegin (if cur.children.isEmpty then it + c.props.bytes.length else cur.propsEnd)
    (cur.children ++ c.nodes it)

theorem close_text (cur : Node) (it : Nat) (u : Text) :
    cur.close it (.text u) = endProps cur (it + u.bytes.length) := by
  obtain ⟨t, b, e, c⟩ := cur
  cases c <;> simp [Node.close, endProps, Content.props, Content.nodes, Node.type, Node.propsBegin, Node.propsEnd,
    Node.children, Node.setPropsEnd]

theorem close_child (cur : Node) (it : Nat) (u : Text) (type : UInt8) (inner after : Content) :
    cur.close it (.child u type inner after) =
      ((endProps cur (it + u.bytes.length)).addChild (inner.node type (it + u.bytes.length + 2))).close
        (it + u.bytes.length + 2 + inner.bytes.length + 1) after := by
  obtain ⟨t, b, e, c⟩ := cur
  cases c <;> simp [Node.close, endProps, Content.props, Content.nodes, Content.node, Node.type, Node.propsBegin,
    Node.propsEnd, Node.children, Node.setPropsEnd, Node.addChild]

theorem close_fresh (type : UInt8) (it : Nat) (c : Content) :
    (Node.mk type it 0 []).close it c = c.node type it := by
  simp [Node.close, Content.node, Node.type, Node.propsBegin, Node.children]

/-- A content and its END fill the node on top of the stack and pop it. -/
theorem parseLoop_content (c : Content) (it : Nat) (left : List UInt8) (root cur : Node) (stack : List Node) :
    parseLoop it (c.bytes ++ END :: left) ⟨root, cur :: stack⟩ =
      parseLoop (it + c.bytes.length + 1) left (.pop (cur.close it c) stack root) := by
  induction c generalizing it left cur stack with
  | text u =>
    rw [Content.bytes, parseLoop_unmarked u.unmarked, parseLoop_end, close_text]
  | child u type inner after ihi iha =>
    have hlen : (Content.child u type inner after).bytes.length =
        u.bytes.length + 2 + inner.bytes.length + 1 + after.bytes.length := by
      simp only [Content.bytes, List.length_append, List.length_cons]
      omega
    have hb : (Content.child u type inner after).bytes ++ END :: left =
        u.bytes ++ START :: type :: (inner.bytes ++ END :: (after.bytes ++ END :: left)) := by
      simp [Content.bytes]
    -- the child is pushed, filled by its own content and popped into the node below it
    rw [hb, parseLoop_unmarked u.unmarked, parseLoop_start, ihi, close_fresh, ParseState.pop, iha, close_child, hlen]
    congr 1
    omega

/-- More text before the first child or the END. -/
theorem Content.exists_append {u : List UInt8} (c : Content) (h : ∀ v, Unmarked v → Unmarked (u ++ v)) :
    ∃ c' : Content, c'.bytes = u ++ c.bytes := by
  cases c with
  | text v => exact ⟨.text ⟨u ++ v.bytes, h v.bytes v.unmarked⟩, rfl⟩
  | child v type inner after =>
    exact ⟨.child ⟨u ++ v.bytes, h v.bytes v.unmarked⟩ type inner after, List.append_assoc ..⟩

/-- A run of the loop that empties the stack finds the END of the node on its top. -/
theorem content_of_parseLoop {n it : Nat} {left : List UInt8} {root cur : Node} {stack : List Node} {s : ParseState}
    (hn : left.length ≤ n) (h : parseLoop it left ⟨root, cur :: stack⟩ = .ok s) (hs : s.parseStack = []) :
    ∃ (c : Content) (left' : List UInt8), left = c.bytes ++ END :: left' := by
  induction n generalizing it left cur stack with
  | zero =>
    obtain rfl : left = [] := List.length_eq_zero_iff.mp (Nat.le_zero.mp hn)
    cases h
    cases hs
  | succ n ih =>
    cases left with
    | nil =>
      cases h
      cases hs
    | cons b left =>
      rw [List.length_cons, Nat.succ_le_succ_iff] at hn
      by_cases hstart : b = START
      · subst hstart
        cases left with
        | nil => cases h
        | cons type left =>
          rw [parseLoop_start] at h
          rw [List.length_cons] at hn
          obtain ⟨inner, left₁, rfl⟩ := ih (by omega) h
          -- the child is popped by its END, so the rest of the run closes the node below it
          rw [parseLoop_content, ParseState.pop] at h
          rw [List.length_append, List.length_cons] at hn
          obtain ⟨after, left₂, rfl⟩ := ih (by omega) h
          exact ⟨.child ⟨[], .nil⟩ type inner after, left₂, by simp [Content.bytes]⟩
      · by_cases hend : b = END
        · exact ⟨.text ⟨[], .nil⟩, left, by rw [hend]; rfl⟩
        · by_cases hesc : b = ESCAPE
          · subst hesc
            cases left with
            | nil => cases h
            | cons b left =>
              rw [parseLoop_escape] at h
              rw [List.length_cons] at hn
              obtain ⟨c, left', rfl⟩ := ih (by omega) h
              obtain ⟨c', hc'⟩ := c.exists_append (u := [ESCAPE, b]) fun v hv => .escaped hv
              exact ⟨c', left', by rw [hc']; rfl⟩
          · have hb : ¬IsMark b := by simp [IsMark, hesc, hstart, hend]
            rw [parseLoop_plain hb] at h
            obtain ⟨c, left', rfl⟩ := ih hn h
            obtain ⟨c', hc'⟩ := c.exists_append (u := [b]) fun v hv => .plain hb hv
            exact ⟨c', left', by rw [hc']; rfl⟩

/-- With no node open, only text is left. -/
theorem unmarked_of_parseLoop {n it : Nat} {left : List UInt8} {root : Node} {s : ParseState} (hn : left.length ≤ n)
    (h : parseLoop it left ⟨root, []⟩ = .ok s) : Unmarked left := by
  induction n generalizing it left with
  | zero =>
    obtain rfl : left = [] := List.length_eq_zero_iff.mp (Nat.le_zero.mp hn)
    exact .nil
  | succ n ih =>
    cases left with
    | nil => exact .nil
    | cons b left =>
      rw [List.length_cons, Nat.succ_le_succ_iff] at hn
      by_cases hb : IsMark b
      · rcases hb with rfl | rfl | rfl
        · cases left with
          | nil => cases h
          | cons b left =>
            rw [parseLoop_escape] at h
            rw [List.length_cons] at hn
            exact .escaped (ih (by omega) h)
        · rw [parseLoop_start_nil] at h
          cases h
        · rw [parseLoop_end_nil] at h
          cases h
      · rw [parseLoop_plain hb] at h
        exact .plain hb (ih hn h)

/-- The loop never reads behind the end of the file. -/
theorem parseLoop_error {n it : Nat} {left : List UInt8} {s : ParseState} {e : LoadError} (hn : left.length ≤ n)
    (h : parseLoop it left s = .error e) : e = .invalidOTBFormat := by
  induction n generalizing it left s with
  | zero =>
    obtain rfl : left = [] := List.length_eq_zero_iff.mp (Nat.le_zero.mp hn)
    cases h
  | succ n ih =>
    cases left with
    | nil => cases h
    | cons b left =>
      rw [List.length_cons, Nat.succ_le_succ_iff] at hn
      by_cases hb : IsMark b
      · obtain ⟨root, stack⟩ := s
        rcases hb with rfl | rfl | rfl
        · cases left with
          | nil =>
            rw [parseLoop_escape_nil] at h
            exact (Except.error.inj h).symm
          | cons b left =>
            rw [parseLoop_escape] at h
            rw [List.length_cons] at hn
            exact ih (by omega) h
        · cases stack with
          | nil =>
            rw [parseLoop_start_nil] at h
            exact (Except.error.inj h).symm
          | cons cur stack =>
            cases left with
            | nil =>
              cases h
              rfl
            | cons type left =>
              rw [parseLoop_start] at h
              rw [List.length_cons] at hn
              exact ih (by omega) h
        · cases stack with
          | nil =>
            rw [parseLoop_end_nil] at h
            exact (Except.error.inj h).symm
          | cons cur stack =>
            rw [parseLoop_end] at h
            exact ih hn h
      · rw [parseLoop_plain hb] at h
        exact ih hn h

end Loop

/-! ### The parser -/

theorem parseTree_of_encloses {fileContents : List UInt8} {node : Node} (h : Encloses fileContents node) :
    parseTree fileContents = .ok node := by
  obtain ⟨type, c, u, hd, rfl⟩ := h
  have hloop := parseLoop_content c (identifierSize + 2) u.bytes (.mk type (identifierSize + 2) 0 [])
    (.mk type (identifierSize + 2) 0 []) []
  have hrest : parseLoop (identifierSize + 2 + c.bytes.length + 1) (u.bytes ++ [])
      ⟨c.node type (identifierSize + 2), []⟩ = .ok ⟨c.node type (identifierSize + 2), []⟩ :=
    parseLoop_unmarked u.unmarked
  rw [List.append_nil] at hrest
  rw [close_fresh, ParseState.pop, hrest] at hloop
  rw [parseTree, hd]
  simp only [ne_eq, not_true_eq_false, if_false, hloop]
  rfl

theorem encloses_of_parseTree {fileContents : List UInt8} {node : Node} (h : parseTree fileContents = .ok node) :
    Encloses fileContents node := by
  have hparse := h
  rw [parseTree] at h
  cases hd : fileContents.drop identifierSize with
  | nil =>
    rw [hd] at h
    cases h
  | cons start left =>
    rw [hd] at h
    by_cases hs : start = START
    · subst hs
      cases left with
      | nil => cases h
      | cons type left =>
        simp only [ne_eq, not_true_eq_false, if_false] at h
        cases hl : parseLoop (identifierSize + 2) left ⟨.mk type (identifierSize + 2) 0 [],
            [.mk type (identifierSize + 2) 0 []]⟩ with
        | error e =>
          rw [hl] at h
          cases h
        | ok s =>
          rw [hl] at h
          cases hst : s.parseStack with
          | cons n ns =>
            simp [hst] at h
          | nil =>
            obtain ⟨c, left', rfl⟩ := content_of_parseLoop le_rfl hl hst
            rw [parseLoop_content, ParseState.pop] at hl
            have hu := unmarked_of_parseLoop le_rfl hl
            have henc : Encloses fileContents (c.node type (identifierSize + 2)) :=
              ⟨type, c, ⟨left', hu⟩, by rw [hd], rfl⟩
            rw [parseTree_of_encloses henc] at hparse
            cases hparse
            exact henc
    · simp only [ne_eq, hs, not_false_eq_true, if_true] at h
      cases h

/-- `parseTree` returns a node on the files that are this node between its marks, and on no others. -/
theorem parseTree_eq_ok_iff {fileContents : List UInt8} {node : Node} :
    parseTree fileContents = .ok node ↔ Encloses fileContents node :=
  ⟨encloses_of_parseTree, parseTree_of_encloses⟩

theorem parseTree_error {fileContents : List UInt8} {e : LoadError} (hlen : minimalSize < fileContents.length)
    (h : parseTree fileContents = .error e) : e = .invalidOTBFormat := by
  have hl : (fileContents.drop identifierSize).length = fileContents.length - identifierSize := List.length_drop
  rw [parseTree] at h
  match hd : fileContents.drop identifierSize with
  | [] =>
    rw [hd] at hl
    simp only [minimalSize, identifierSize, List.length_nil] at hl hlen
    omega
  | [start] =>
    rw [hd] at hl
    simp only [minimalSize, identifierSize, List.length_cons, List.length_nil] at hl hlen
    omega
  | start :: type :: left =>
    rw [hd] at h
    by_cases hs : start = START
    · simp only [hs, ne_eq, not_true_eq_false, if_false] at h
      cases hloop : parseLoop (identifierSize + 2) left ⟨.mk type (identifierSize + 2) 0 [],
          [.mk type (identifierSize + 2) 0 []]⟩ with
      | error e' =>
        rw [hloop] at h
        exact (Except.error.inj h).symm.trans (parseLoop_error le_rfl hloop)
      | ok s =>
        rw [hloop] at h
        cases hst : s.parseStack.isEmpty with
        | true => simp [hst] at h
        | false =>
          simp only [hst] at h
          exact (Except.error.inj h).symm
    · simp only [hs, ne_eq, not_false_eq_true, if_true] at h
      exact (Except.error.inj h).symm

theorem construct_ok {fileContents : List UInt8} {acceptedIdentifier : Identifier}
    (h : construct fileContents acceptedIdentifier = .ok ()) : minimalSize < fileContents.length := by
  by_contra hn
  rw [construct, if_pos (by omega)] at h
  cases h

theorem construct_error {fileContents : List UInt8} {acceptedIdentifier : Identifier} {e : LoadError}
    (h : construct fileContents acceptedIdentifier = .error e) : e = .invalidOTBFormat := by
  unfold construct at h
  dsimp only at h
  split at h
  · exact (Except.error.inj h).symm
  · split at h
    · exact (Except.error.inj h).symm
    · cases h

/-- Loading a file returns the node that the file encloses or throws. -/
theorem load_cases (fileContents : List UInt8) (acceptedIdentifier : Identifier) :
    (∃ node, load fileContents acceptedIdentifier = .ok node ∧ Encloses fileContents node) ∨
      load fileContents acceptedIdentifier = .error .invalidOTBFormat := by
  unfold load
  cases hc : construct fileContents acceptedIdentifier with
  | error e => exact Or.inr (by rw [construct_error hc])
  | ok u =>
    cases hp : parseTree fileContents with
    | ok node => exact Or.inl ⟨node, rfl, encloses_of_parseTree hp⟩
    | error e => exact Or.inr (by rw [parseTree_error (construct_ok hc) hp])

/-! ### A laid out tree -/

theorem unmarked_escape (bs : List UInt8) : Unmarked (escape bs) := by
  induction bs with
  | nil => exact .nil
  | cons b bs ih =>
    by_cases hb : IsMark b
    · rw [escape, stuff_special hb]
      exact .escaped ih
    · rw [escape, stuff_plain hb]
      exact .plain hb ih

namespace Tree

def type : Tree → UInt8
  | node type _ _ => type

mutual
/-- What the layout of a tree has between the type and the END. -/
def content : Tree → Content
  | node _ props children => contents children ⟨escape props, unmarked_escape props⟩

def contents : List Tree → Text → Content
  | [], u => .text u
  | t :: ts, u => .child u t.type (content t) (contents ts ⟨[], .nil⟩)
end

@[simp] theorem props_contents (ts : List Tree) (u : Text) : (contents ts u).props = u := by
  cases ts <;> rfl

mutual
theorem layout_eq : (t : Tree) → t.layout = START :: t.type :: (t.content.bytes ++ [END])
  | node type props children => by
    rw [layout, content, bytes_contents children]
    rfl

theorem bytes_contents : (ts : List Tree) → (u : Text) → (contents ts u).bytes = u.bytes ++ layoutAll ts
  | [], u => by rw [contents, layoutAll, Content.bytes, List.append_nil]
  | t :: ts, u => by
    rw [contents, layoutAll, Content.bytes, layout_eq t, bytes_contents ts]
    simp
end

end Tree

theorem copyProps_eq (lastEscaped : Bool) (bs : List UInt8) :
    copyProps lastEscaped bs = unstuff ESCAPE lastEscaped bs := by
  induction bs generalizing lastEscaped with
  | nil => rfl
  | cons b bs ih =>
    cases lastEscaped <;> by_cases hb : b = ESCAPE <;> simp [copyProps, unstuff, hb, ih]

/-- The filter of `getProps` takes away exactly the escape bytes. -/
theorem copyProps_escape (bs : List UInt8) : copyProps false (escape bs) = bs := by
  rw [copyProps_eq, escape, unstuff_stuff isMark_escape]

theorem getProps_node {fileContents : List UInt8} {type : UInt8} {it : Nat} {props : List UInt8} {ns : List Node}
    (h : escape props <+: fileContents.drop it) :
    (getProps fileContents (.mk type it (it + (escape props).length) ns)).getD [] = props := by
  have hlen : it + (escape props).length - it = (escape props).length := by omega
  simp only [getProps, Node.propsBegin, Node.propsEnd, hlen]
  rw [← List.prefix_iff_eq_take.mp h, copyProps_escape]
  split
  · rename_i h0
    have h1 := length_le_escape props
    rw [h0] at h1
    have hp : props.length = 0 := by omega
    rw [List.length_eq_zero_iff.mp hp]
    rfl
  · rfl

theorem behind_append {it : Nat} {ys l : List UInt8} (xs : List UInt8) (h : xs ++ ys <+: l.drop it) :
    ys <+: l.drop (it + xs.length) := by
  obtain ⟨zs, hz⟩ := h
  refine ⟨zs, ?_⟩
  rw [← List.drop_drop, ← hz, List.append_assoc, List.drop_left]

namespace Tree
variable {fileContents : List UInt8}

mutual
/-- The node of a laid out tree reads as the tree. -/
theorem ofNode_content : (t : Tree) → (it : Nat) → t.content.bytes <+: fileContents.drop it →
    ofNode fileContents (t.content.node t.type it) = t
  | node type props children, it, h => by
    rw [content] at h ⊢
    have hprops : escape props <+: fileContents.drop it := by
      rw [bytes_contents] at h
      exact (List.prefix_append _ _).trans h
    rw [Content.node, props_contents, ofNode, getProps_node hprops, ofNodes_contents children _ it h]
    rfl

theorem ofNodes_contents : (ts : List Tree) → (u : Text) → (it : Nat) →
    (contents ts u).bytes <+: fileContents.drop it → ofNodes fileContents ((contents ts u).nodes it) = ts
  | [], _, _, _ => rfl
  | t :: ts, u, it, h => by
    rw [contents, Content.bytes] at h
    have hinner := behind_append [START, t.type] (behind_append _ h)
    have hafter := behind_append [END] (behind_append _ hinner)
    rw [contents, Content.nodes, ofNodes]
    have ht := ofNode_content t _ ((List.prefix_append _ _).trans hinner)
    have hts := ofNodes_contents ts ⟨[], .nil⟩ _ hafter
    rw [Content.node] at ht
    exact congrArg₂ List.cons ht hts
end

end Tree

theorem encloses_layout (identifier : Identifier) (t : Tree) :
    Encloses (identifier.toList ++ t.layout) (t.content.node t.type (identifierSize + 2)) := by
  refine ⟨t.type, t.content, ⟨[], .nil⟩, ?_, rfl⟩
  rw [List.drop_left' (by simp), Tree.layout_eq]

/-- A tree that is laid out behind any identifier is parsed to nodes that read as the tree, with its types, shape
    and properties. Every other file is refused as malformed, or its STARTs and ENDs enclose the nodes that
    are returned, each START matched by one END. -/
theorem parseTree_layout_and_load (identifier : Identifier) :
    (∀ t : Tree, ∃ node, parseTree (identifier.toList ++ t.layout) = .ok node ∧
      Tree.ofNode (identifier.toList ++ t.layout) node = t) ∧
    ∀ fileContents, (∃ node, load fileContents identifier = .ok node ∧ Encloses fileContents node) ∨
      load fileContents identifier = .error .invalidOTBFormat := by
  refine ⟨fun t => ⟨_, parseTree_of_encloses (encloses_layout identifier t), ?_⟩, fun fileContents =>
    load_cases fileContents identifier⟩
  apply Tree.ofNode_content
  have hsize : identifierSize + 2 = identifier.toList.length + 2 := by simp
  rw [hsize, ← List.drop_drop, List.drop_left, Tree.layout_eq]
  exact List.prefix_append _ _

/-- The constructor takes every laid out tree but a root that has neither properties nor children. -/
theorem construct_layout (identifier : Identifier) (t : Tree) :
    construct (identifier.toList ++ t.layout) identifier = .ok () ↔ t.content.bytes ≠ [] := by
  have hid : (identifier.toList ++ t.layout).take identifierSize = identifier.toList := List.take_left' (by simp)
  have hlen : (identifier.toList ++ t.layout).length = minimalSize + t.content.bytes.length := by
    simp [Tree.layout_eq, minimalSize]
    omega
  simp only [construct, hid, hlen, ne_eq, not_true_eq_false, false_and, if_false]
  cases hc : t.content.bytes with
  | nil => simp
  | cons b bs => simp

end CrystalServer.OTB
