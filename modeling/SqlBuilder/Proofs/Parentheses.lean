import SqlBuilder.Proofs.Condition.Predicates
import SqlBuilder.Proofs.Payload.Pieces

/-!
# Parentheses that match

A text is balanced when reading it ends outside all quotes and every parenthesis that it opens
outside of them is closed again, none before it was opened. An outline keeps a written text with
its parentheses as a tree. If each level of the tree is balanced when the pairs on it are read as
single tokens, the whole text is balanced, and the two parentheses of every pair match.
-/
namespace SqlBuilder

open Lexer
open Condition (depthAfter nesting nesting_append nesting_cons)

namespace Lexer

variable {e : Engine} {s : State} {cs ds : List Char}

/-- The text ends outside quotes, with all its parentheses closed and none closed too early. -/
structure Balanced (e : Engine) (cs : List Char) : Prop where
  closed : Closed e cs
  nesting_eq : nesting 0 (tokens e cs) = some 0

instance (e : Engine) (cs : List Char) : Decidable (Balanced e cs) :=
  decidable_of_iff (Closed e cs ∧ nesting 0 (tokens e cs) = some 0)
    ⟨fun h => ⟨h.1, h.2⟩, fun h => ⟨h.1, h.2⟩⟩

theorem nesting_of_no_parens {ts : List Token} (hopen : .symbol '(' ∉ ts)
    (hclose : .symbol ')' ∉ ts) (d : Nat) : nesting d ts = some d := by
  induction ts with
  | nil => rfl
  | cons t ts ih =>
    rw [List.mem_cons, not_or] at hopen hclose
    rw [nesting_cons, depthAfter, if_neg (Ne.symm hopen.1), if_neg (Ne.symm hclose.1)]
    exact ih hopen.2 hclose.2

/-- Text in which no parentheses stand. -/
def ParenFree (cs : List Char) : Prop := ∀ c ∈ cs, c ≠ '(' ∧ c ≠ ')'

instance (cs : List Char) : Decidable (ParenFree cs) :=
  List.decidableBAll (fun c => c ≠ '(' ∧ c ≠ ')') cs

theorem nesting_scan_of_parenFree (h : ParenFree cs) (s : State) (d : Nat) :
    nesting d (scan e s cs).1 = some d :=
  nesting_of_no_parens (fun hopen => (h _ (mem_of_symbol_mem_scan hopen)).1 rfl)
    (fun hclose => (h _ (mem_of_symbol_mem_scan hclose)).2 rfl) d

theorem nesting_pending (s : State) (d : Nat) : nesting d s.pending = some d :=
  nesting_of_no_parens (symbol_notMem_pending s _) (symbol_notMem_pending s _) d

theorem nesting_tokens (d : Nat) : nesting d (tokens e cs) = nesting d (scan e .between cs).1 := by
  rw [tokens, nesting_append]
  cases nesting d (scan e .between cs).1 with
  | none => rfl
  | some d' => exact nesting_pending _ d'

theorem nesting_add {ts : List Token} {d d' : Nat} (h : nesting d ts = some d') (k : Nat) :
    nesting (d + k) ts = some (d' + k) := by
  induction ts generalizing d with
  | nil =>
    cases h
    rfl
  | cons t ts ih =>
    rw [nesting_cons] at h
    obtain ⟨d₁, hd₁, hrest⟩ := Option.bind_eq_some_iff.mp h
    have hstep : depthAfter (d + k) t = some (d₁ + k) := by
      rw [depthAfter] at hd₁ ⊢
      split at hd₁
      · cases hd₁
        rw [if_pos ‹_›, Nat.add_right_comm]
      · rw [if_neg ‹_›]
        split at hd₁
        · split at hd₁
          · cases hd₁
          · cases hd₁
            rw [if_pos ‹_›, if_neg (by omega)]
            congr 1
            omega
        · cases hd₁
          rw [if_neg ‹_›]
    rw [nesting_cons, hstep]
    exact ih hrest

/-- A balanced text in parentheses leaves no trace, wherever it stands outside quotes. -/
theorem scan_paren (hs : s.Settled) (h : Balanced e cs) :
    (scan e s ('(' :: (cs ++ [')']))).2 = .between ∧
      ∀ d, nesting d (scan e s ('(' :: (cs ++ [')']))).1 = some d := by
  have hscan : scan e s ('(' :: (cs ++ [')'])) =
      (s.pending ++ .symbol '(' :: (tokens e cs ++ [.symbol ')']), .between) := by
    rw [scan_symbol e hs (by decide), scan_append, scan_symbol_alone e h.closed (by decide), tokens,
      List.append_assoc]
  refine ⟨congrArg Prod.snd hscan, fun d => ?_⟩
  have hinner := nesting_add h.nesting_eq (d + 1)
  rw [Nat.zero_add] at hinner
  rw [hscan, nesting_append, nesting_pending, Option.bind_some, nesting_cons]
  show nesting (d + 1) (tokens e cs ++ [.symbol ')']) = some d
  rw [nesting_append, hinner]
  rfl

theorem Balanced.after (hg : Opens e cs) (hfree : ParenFree cs) (h : Balanced e ds) :
    Balanced e (cs ++ ds) := by
  refine ⟨closed_append_of_opens hg h.closed, ?_⟩
  rw [tokens_append_of_opens hg, nesting_append, nesting_tokens, nesting_scan_of_parenFree hfree]
  exact h.nesting_eq

theorem Balanced.before (h : Balanced e cs) (hg : Separates e ds) (hfree : ParenFree ds) :
    Balanced e (cs ++ ds) := by
  have hend : (scan e .between (cs ++ ds)).2 = .between := opens_append_separates h.closed hg
  constructor
  · rw [Closed, hend]
    trivial
  · rw [tokens_append_separates h.closed hg, nesting_append, h.nesting_eq, Option.bind_some,
      nesting_tokens, nesting_scan_of_parenFree hfree]

/-- A stretch of text, or something that stands between texts as one token. -/
inductive Item where
  | text (cs : List Char)
  | atom

/-- Reading goes on from a state and a number of open parentheses. Inside quotes no token is read,
so an atom cannot stand there. -/
def Item.read (e : Engine) (r : State × Nat) : Item → Option (State × Nat)
  | .text cs => (nesting r.2 (scan e r.1 cs).1).map fun d => ((scan e r.1 cs).2, d)
  | .atom => if r.1.Settled then some (.between, r.2) else none

def readItems (e : Engine) (r : State × Nat) (items : List Item) : Option (State × Nat) :=
  items.foldlM (Item.read e) r

/-- The items end outside quotes, with all their parentheses closed and none closed too early. -/
def Whole (e : Engine) (items : List Item) : Prop :=
  ∃ s : State, s.Settled ∧ readItems e (.between, 0) items = some (s, 0)

instance (e : Engine) (items : List Item) : Decidable (Whole e items) :=
  match h : readItems e (.between, 0) items with
  | none => .isFalse fun ⟨s, _, hread⟩ => by rw [h] at hread; cases hread
  | some (s, d) => decidable_of_iff (s.Settled ∧ d = 0)
    ⟨fun ⟨hs, hd⟩ => ⟨s, hs, by rw [h, hd]⟩,
      fun ⟨s', hs, hread⟩ => by rw [h] at hread; cases hread; exact ⟨hs, rfl⟩⟩

theorem readItems_cons (r : State × Nat) (i : Item) (items : List Item) :
    readItems e r (i :: items) = (i.read e r).bind fun r => readItems e r items := List.foldlM_cons

theorem readItems_append (r : State × Nat) (items items' : List Item) :
    readItems e r (items ++ items') =
      (readItems e r items).bind fun r => readItems e r items' := List.foldlM_append

namespace Whole

variable {items items' : List Item}

theorem nil : Whole e [] := ⟨.between, trivial, rfl⟩

theorem atom : Whole e [.atom] := ⟨.between, trivial, rfl⟩

theorem text (h : Balanced e cs) : Whole e [.text cs] := by
  refine ⟨(scan e .between cs).2, h.closed, ?_⟩
  have hnesting := h.nesting_eq
  rw [nesting_tokens] at hnesting
  rw [readItems_cons, Item.read, hnesting]
  rfl

theorem opened (hg : Opens e cs) (hfree : ParenFree cs) (h : Whole e items) :
    Whole e (.text cs :: items) := by
  obtain ⟨s, hs, hread⟩ := h
  have hend : (scan e .between cs).2 = .between := hg
  refine ⟨s, hs, ?_⟩
  rw [readItems_cons, Item.read, nesting_scan_of_parenFree hfree, hend]
  exact hread

theorem separated (h : Whole e items) (hg : Separates e cs) (hfree : ParenFree cs)
    (h' : Whole e items') : Whole e (items ++ .text cs :: items') := by
  obtain ⟨s, hs, hread⟩ := h
  obtain ⟨s', hs', hread'⟩ := h'
  have hend : (scan e s cs).2 = .between := congrArg Prod.snd (scan_separates hs hg)
  refine ⟨s', hs', ?_⟩
  rw [readItems_append, hread, Option.bind_some, readItems_cons, Item.read,
    nesting_scan_of_parenFree hfree, hend]
  exact hread'

theorem before_atom (h : Whole e items) : Whole e (items ++ [.atom]) := by
  obtain ⟨s, hs, hread⟩ := h
  refine ⟨.between, trivial, ?_⟩
  rw [readItems_append, hread, Option.bind_some, readItems_cons, Item.read, if_pos hs]
  rfl

theorem before_nil (h : Whole e items) : Whole e (items ++ [.text []]) := by
  obtain ⟨s, hs, hread⟩ := h
  refine ⟨s, hs, ?_⟩
  rw [readItems_append, hread]
  rfl

end Whole

end Lexer

/-- A written text whose parentheses are kept: what stands between the two of a pair is inside. -/
inductive Node where
  | piece (p : Piece)
  | paren (inner : List Node)

abbrev Outline := List Node

namespace Outline

variable {e : Engine} {layout : Layout} {o o' inner : Outline}

mutual

def nodeChars (layout : Layout) : Node → List Char
  | .piece p => (p.written layout).toList
  | .paren inner => '(' :: (chars layout inner ++ [')'])

def chars (layout : Layout) : Outline → List Char
  | [] => []
  | n :: ns => nodeChars layout n ++ chars layout ns

end

/-- A pair of parentheses is read as one token on the level on which it stands. -/
def item (layout : Layout) : Node → Item
  | .piece p => .text (p.written layout).toList
  | .paren _ => .atom

/-- Every level is balanced in itself. -/
inductive Sound (e : Engine) (layout : Layout) : Outline → Prop where
  | mk {o : Outline} : Whole e (o.map (item layout)) →
      (∀ inner, .paren inner ∈ o → Sound e layout inner) → Sound e layout o

/-- Somewhere in the outline this text stands before a pair of parentheses, and that one behind. -/
inductive Encloses (layout : Layout) : Outline → List Char → Outline → List Char → Prop where
  | here (o inner o' : Outline) :
      Encloses layout (o ++ .paren inner :: o') (chars layout o) inner (chars layout o')
  | deeper (o o' : Outline) {middle inner : Outline} {before behind : List Char} :
      Encloses layout middle before inner behind →
      Encloses layout (o ++ .paren middle :: o') (chars layout o ++ '(' :: before) inner
        (behind ++ ')' :: chars layout o')

theorem chars_append (layout : Layout) (o o' : Outline) :
    chars layout (o ++ o') = chars layout o ++ chars layout o' := by
  induction o with
  | nil => simp [chars]
  | cons n ns ih => rw [List.cons_append, chars, chars, ih, List.append_assoc]

theorem Sound.whole (h : Sound e layout o) : Whole e (o.map (item layout)) := by
  cases h with | mk hwhole _ => exact hwhole

theorem Sound.of_mem (h : Sound e layout o) (hmem : .paren o' ∈ o) : Sound e layout o' := by
  cases h with | mk _ hinner => exact hinner o' hmem

theorem scan_node {n : Node} (hinner : ∀ inner, n = .paren inner → Balanced e (chars layout inner))
    {r r' : State × Nat} (h : (item layout n).read e r = some r') :
    (scan e r.1 (nodeChars layout n)).2 = r'.1 ∧
      nesting r.2 (scan e r.1 (nodeChars layout n)).1 = some r'.2 := by
  cases n with
  | piece p =>
    obtain ⟨d, hd, rfl⟩ := Option.map_eq_some_iff.mp h
    exact ⟨rfl, hd⟩
  | paren inner =>
    obtain ⟨hsettled, hr⟩ := Option.ite_none_right_eq_some.mp h
    cases hr
    obtain ⟨hstate, hnesting⟩ := scan_paren hsettled (hinner inner rfl)
    exact ⟨hstate, hnesting r.2⟩

/-- A level is read as its items are, once what stands in its parentheses is known to be
balanced. -/
theorem scan_chars (hinner : ∀ inner, .paren inner ∈ o → Balanced e (chars layout inner))
    {r r' : State × Nat} (h : readItems e r (o.map (item layout)) = some r') :
    (scan e r.1 (chars layout o)).2 = r'.1 ∧
      nesting r.2 (scan e r.1 (chars layout o)).1 = some r'.2 := by
  induction o generalizing r with
  | nil =>
    cases h
    exact ⟨rfl, rfl⟩
  | cons n ns ih =>
    rw [List.map_cons, readItems_cons] at h
    obtain ⟨m, hm, h⟩ := Option.bind_eq_some_iff.mp h
    obtain ⟨hstate, hdepth⟩ := scan_node (fun inner hn => hinner inner (hn ▸ List.mem_cons_self)) hm
    obtain ⟨hstate', hdepth'⟩ := ih (fun inner hmem => hinner inner (List.mem_cons_of_mem n hmem)) h
    rw [chars, scan_append, hstate, nesting_append, hdepth]
    exact ⟨hstate', hdepth'⟩

theorem Sound.balanced (h : Sound e layout o) : Balanced e (chars layout o) := by
  induction h with
  | mk hwhole _ ih =>
    obtain ⟨s, hs, hread⟩ := hwhole
    obtain ⟨hstate, hnesting⟩ := scan_chars ih hread
    refine ⟨?_, ?_⟩
    · rw [Closed, hstate]
      exact hs
    · rw [nesting_tokens]
      exact hnesting

/-- Where a pair of parentheses stands on a level, the text before it ends outside quotes. -/
theorem Sound.closed_before (h : Sound e layout (o ++ .paren inner :: o')) :
    Closed e (chars layout o) := by
  obtain ⟨s, -, hread⟩ := h.whole
  rw [List.map_append, readItems_append] at hread
  obtain ⟨m, hm, hread⟩ := Option.bind_eq_some_iff.mp hread
  rw [List.map_cons, readItems_cons] at hread
  obtain ⟨m', hatom, -⟩ := Option.bind_eq_some_iff.mp hread
  obtain ⟨hsettled, -⟩ := Option.ite_none_right_eq_some.mp hatom
  have hinner : ∀ inner', .paren inner' ∈ o → Balanced e (chars layout inner') :=
    fun inner' hmem => (h.of_mem (List.mem_append_left _ hmem)).balanced
  rw [Closed, (scan_chars hinner hm).1]
  exact hsettled

/-- The text is cut into what stands before a pair of parentheses, inside of it and behind it. Both
are tokens of the text, and what stands inside opens and closes only parentheses of its own, so the
second of the pair is the one that closes the first. -/
structure Matched (e : Engine) (text before inner behind : List Char) : Prop where
  text_eq : text = before ++ '(' :: (inner ++ ')' :: behind)
  tokens_eq : tokens e text =
    tokens e before ++ .symbol '(' :: (tokens e inner ++ .symbol ')' :: tokens e behind)
  before : Closed e before
  inner : Balanced e inner

theorem matched_of_closed {before inner behind : List Char} (hbefore : Closed e before)
    (hinner : Balanced e inner) :
    Matched e (before ++ '(' :: (inner ++ ')' :: behind)) before inner behind := by
  have hsymbol (c : Char) (hc : isSymbol c = true) (cs : List Char) :
      tokens e (c :: cs) = .symbol c :: tokens e cs := by
    rw [tokens, scan_symbol e (s := .between) trivial hc]
    rfl
  refine ⟨rfl, ?_, hbefore, hinner⟩
  rw [tokens_append_symbol hbefore (by decide), hsymbol '(' (by decide),
    tokens_append_symbol hinner.closed (by decide), hsymbol ')' (by decide)]

theorem chars_paren (layout : Layout) (o middle o' : Outline) :
    chars layout (o ++ .paren middle :: o') =
      chars layout o ++ '(' :: (chars layout middle ++ ')' :: chars layout o') := by
  rw [chars_append, chars, nodeChars, List.cons_append, List.append_assoc, List.singleton_append]

/-- In a sound outline the parentheses of every pair match. -/
theorem Sound.matched (h : Sound e layout o) {before behind : List Char}
    (hplace : Encloses layout o before inner behind) :
    Matched e (chars layout o) before (chars layout inner) behind := by
  induction hplace with
  | here o inner o' =>
    rw [chars_paren]
    exact matched_of_closed h.closed_before (h.of_mem (by simp)).balanced
  | @deeper o o' middle inner before behind _ ih =>
    have hmiddle := ih (h.of_mem (by simp))
    have htext : chars layout (o ++ .paren middle :: o') = (chars layout o ++ '(' :: before) ++
        '(' :: (chars layout inner ++ ')' :: (behind ++ ')' :: chars layout o')) := by
      rw [chars_paren, hmiddle.text_eq]
      simp
    have hopen : Opens e ['('] := by cases e <;> decide
    have hbefore : Closed e ('(' :: before) := closed_append_of_opens hopen hmiddle.before
    rw [htext]
    exact matched_of_closed (closed_append_symbol h.closed_before (by decide) hbefore) hmiddle.inner

end Outline

end SqlBuilder
