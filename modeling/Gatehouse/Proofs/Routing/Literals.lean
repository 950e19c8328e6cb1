import Mathlib.Data.List.DropRight
import Mathlib.Data.List.Infix
import Gatehouse.Proofs.Routing.Building

/-!
# Literals — templates without parameters

A template in which no parameter begins is read character by character, braces and slashes included, and the only
path that it takes is its own text, with or without a line break behind it. Slashes at the end of a path are taken
off before the routes are tried, but those of a template stay. A literal route therefore resolves its own text
unless a slash can be taken off that text; then it is passed over there, as if it had never been added.
-/

namespace Gatehouse.Route

/-! ## 1. Reading -/

/-- A text in which no parameter begins. -/
def IsLiteral (text : List Char) : Prop := ∀ rest, rest <:+ text → takeParameter? rest = none

instance (text : List Char) : Decidable (IsLiteral text) :=
  decidable_of_iff (∀ rest ∈ text.tails, takeParameter? rest = none) (by simp only [List.mem_tails, IsLiteral])

theorem IsLiteral.tail {c : Char} {text : List Char} (h : IsLiteral (c :: text)) : IsLiteral text :=
  fun rest hrest => h rest (hrest.trans (List.suffix_cons c text))

/-- Such a text is scanned into its characters. -/
theorem IsLiteral.scansTo {text : List Char} (h : IsLiteral text) : Segment.ScansTo text (text.map .literal) := by
  induction text with
  | nil => rfl
  | cons c text ih =>
    have hscan : scan 0 (c :: text) = .inl c :: scan 0 text := by
      rw [scan, h _ List.suffix_rfl]
    exact Segment.scansTo_cons hscan rfl (ih h.tail)

theorem filterMap_name?_literals (text : List Char) : (text.map Piece.literal).filterMap Piece.name? = [] := by
  induction text with
  | nil => rfl
  | cons c text ih => simp [Piece.name?]

theorem IsLiteral.parse {template : String} (h : IsLiteral template.toList) :
    Template.parse template = .ok (template.toList.map .literal) := by
  have hscan : (scan 0 template.toList).mapM pieceOf = .ok (template.toList.map .literal) := h.scansTo
  unfold Template.parse
  rw [bind_of_eq_ok hscan, filterMap_name?_literals, repeatedNames_of_nodup List.nodup_nil]
  rfl

/-- The route that such a template makes. -/
def Entry.ofLiteral (template : String) (defaults : List (String × Value)) : Entry :=
  ⟨template.toList.map .literal, Field.ofPairs defaults⟩

/-- A table that accepts such a template tries its route after those that were added before. -/
theorem Table.add_literal {table added : Table} {template : String} {defaults : List (String × Value)}
    (hliteral : IsLiteral template.toList) (h : table.add (.text template) defaults = .ok added) :
    added = { table with custom := table.custom ++ [.ofLiteral template defaults] } := by
  have hcompile : compile (.text template) defaults = .ok (.ofLiteral template defaults) ∨
      ∃ f, compile (.text template) defaults = .error f := by
    unfold compile
    rw [if_neg (show ¬Value.isNamed (.text template) "startswith" = true from Bool.false_ne_true)]
    dsimp only [Value.text?_text]
    split
    · rw [bind_of_eq_ok hliteral.parse]
      exact .inl rfl
    · exact .inr ⟨_, rfl⟩
  unfold add at h
  split at h
  · cases h
  · obtain hcompile | ⟨f, hcompile⟩ := hcompile
    · rw [hcompile] at h
      exact (Except.ok.inj h).symm
    · rw [hcompile] at h
      cases h

/-! ## 2. Matching -/

/-- A literal template takes its own text, and nothing else but a line break behind it. -/
theorem captures_literals_iff {text cs : List Char} {captures : List Capture} :
    Template.captures (text.map .literal) cs = some captures ↔
      captures = [] ∧ (cs = text ∨ cs = text ++ ['\n']) := by
  have hnil : text.map Piece.literal = text.map .literal ++ [] := (List.append_nil _).symm
  constructor
  · intro h
    rw [hnil] at h
    obtain ⟨rest, rfl, hrest⟩ := captures_literals h
    obtain ⟨rfl, hend⟩ := of_captures_nil hrest
    simpa using hend
  · rintro ⟨rfl, rfl | rfl⟩
    · have h := Segment.captures_literals_append cs [] []
      rwa [List.append_nil, List.append_nil, captures_nil] at h
    · rw [hnil, Segment.captures_literals_append]
      rfl

/-- Routes that give nothing are passed over. -/
theorem firstMatch_append {front : List Entry} {path : List Char}
    (h : ∀ route ∈ front, route.resolve path = .ok none) (back : List Entry) :
    firstMatch (front ++ back) path = firstMatch back path := by
  induction front with
  | nil => rfl
  | cons route front ih =>
    obtain ⟨hroute, hfront⟩ := List.forall_mem_cons.1 h
    rw [List.cons_append, firstMatch, bind_of_eq_ok hroute]
    exact ih hfront

/-- It does not matter behind which routes a route stands that gives nothing. -/
theorem firstMatch_append_cons {route : Entry} {path : List Char} (h : route.resolve path = .ok none)
    (front back : List Entry) : firstMatch (front ++ route :: back) path = firstMatch (front ++ back) path := by
  induction front with
  | nil =>
    rw [List.nil_append, List.nil_append, firstMatch, bind_of_eq_ok h]
  | cons first front ih =>
    rw [List.cons_append, List.cons_append, firstMatch, firstMatch]
    simp only [ih]

/-! ## 3. Slashes at the end -/

/-- A text of which nothing is taken off when it is a path: a single slash, or a text without a slash at its end. -/
def IsTrimmed (text : List Char) : Prop := text = ['/'] ∨ text.getLast? ≠ some '/'

instance (text : List Char) : Decidable (IsTrimmed text) := inferInstanceAs (Decidable (_ ∨ _))

theorem trimmed_eq (text : List Char) :
    trimmed text = if 1 < text.length then text.rdropWhile (· == '/') else text := rfl

theorem isPrefix_trimmed (text : List Char) : trimmed text <+: text := by
  rw [trimmed_eq]
  split
  · exact List.rdropWhile_prefix _ _
  · exact List.prefix_rfl

theorem isTrimmed_iff (text : List Char) : IsTrimmed text ↔ trimmed text = text := by
  rw [trimmed_eq]
  by_cases hlength : 1 < text.length
  · have hne : text ≠ [] := by
      rintro rfl
      simp at hlength
    have hsingle : text ≠ ['/'] := by
      rintro rfl
      simp at hlength
    rw [if_pos hlength, List.rdropWhile_eq_self_iff]
    simp [IsTrimmed, hsingle, hne, List.getLast?_eq_some_getLast hne]
  · -- A text of one character is a single slash or has another character at its end.
    rw [if_neg hlength]
    match text with
    | [] => simp [IsTrimmed]
    | [c] => by_cases hc : c = '/' <;> simp [IsTrimmed, hc]
    | _ :: _ :: _ => simp at hlength

/-! ## 4. Literal routes -/

/-- Defaults that give a value to a name; it is not empty, and has this text. -/
def Gives (defaults : List (String × Value)) (name text : String) : Prop :=
  ∃ v, Field.given? defaults name = some v ∧ v.truthy = true ∧ v.written? = .ok text

variable {template : String} {defaults : List (String × Value)}

/-- A literal route resolves its own text to what its defaults say. -/
theorem Entry.resolve_ofLiteral {resource action : String} (hresource : Gives defaults "resource" resource)
    (haction : Gives defaults "action" action) :
    (Entry.ofLiteral template defaults).resolve template.toList = .ok (some
      { resource, action
        params := (Field.ofPairs defaults).filter fun p => p.1 != "resource" && p.1 != "action" }) := by
  obtain ⟨v, hv, hvTrue, hvText⟩ := hresource
  obtain ⟨a, ha, haTrue, haText⟩ := haction
  have hcaptures : (Entry.ofLiteral template defaults).template.captures template.toList = some [] :=
    captures_literals_iff.2 ⟨rfl, .inl rfl⟩
  -- A literal takes nothing from the path, so that the defaults are all the parameters there are.
  have hparams : paramsOf (Field.ofPairs defaults) [] = .ok (Field.ofPairs defaults) := rfl
  unfold Entry.resolve
  rw [hcaptures]
  dsimp only [Entry.ofLiteral]
  rw [bind_of_eq_ok hparams, paramOf_ofPairs hv, paramOf_ofPairs ha, hvTrue, haTrue, hvText, haText]
  rfl

/-- What is left of a text whose last slashes are taken off is no path for its own route. -/
theorem Entry.resolve_ofLiteral_trimmed (h : ¬ IsTrimmed template.toList) :
    (Entry.ofLiteral template defaults).resolve (trimmed template.toList) = .ok none := by
  have hlength : (trimmed template.toList).length ≤ template.toList.length := (isPrefix_trimmed _).length_le
  have hcaptures : (Entry.ofLiteral template defaults).template.captures (trimmed template.toList) = none := by
    rw [Option.eq_none_iff_forall_ne_some]
    intro captures htaken
    obtain ⟨-, hsame | hline⟩ := captures_literals_iff.1 htaken
    · exact h ((isTrimmed_iff _).2 hsame)
    · rw [hline, List.length_append, List.length_singleton] at hlength
      omega
  unfold Entry.resolve
  rw [hcaptures]

/-- A literal route that a table has accepted decides about its own text, whatever was in the table and whatever is
added later, if no earlier route does and no slash is taken off that text. If one is taken off, the route is passed
over, as if it had never been added. -/
theorem Table.resolve_literal {table added : Table} (hliteral : IsLiteral template.toList)
    (hadded : table.add (.text template) defaults = .ok added) (later : List Entry) :
    (IsTrimmed template.toList → (∀ route ∈ table.custom, route.resolve template.toList = .ok none) →
      ∀ resource action, Gives defaults "resource" resource → Gives defaults "action" action →
        resolve { added with custom := added.custom ++ later } template.toList = .ok
          { resource, action
            params := (Field.ofPairs defaults).filter fun p => p.1 != "resource" && p.1 != "action" }) ∧
    (¬ IsTrimmed template.toList →
      resolve { added with custom := added.custom ++ later } template.toList =
        resolve { table with custom := table.custom ++ later } template.toList) := by
  obtain rfl := add_literal hliteral hadded
  have hroutes : table.custom ++ [.ofLiteral template defaults] ++ later ++ table.routes =
      table.custom ++ .ofLiteral template defaults :: (later ++ table.routes) := by simp
  unfold resolve
  dsimp only
  rw [hroutes]
  constructor
  · intro htrimmed hearlier resource action hresource haction
    have hown := @Entry.resolve_ofLiteral template defaults resource action hresource haction
    rw [(isTrimmed_iff _).1 htrimmed, firstMatch_append hearlier, firstMatch, hown]
    rfl
  · intro hslashes
    rw [firstMatch_append_cons (Entry.resolve_ofLiteral_trimmed hslashes), List.append_assoc]

/-- A template with two slashes in a row, and with braces that are around no name. -/
def saleTemplate : String := "/sale//\x7b50%\x7d"

def saleDefaults : List (String × Value) :=
  [("resource", .text "products"), ("action", .text "index"), ("discount", .int 50)]

theorem resolve_literal_sale :
    ∃ added, Adapter.productTable.add (.text saleTemplate) saleDefaults = .ok added ∧
      added.resolve saleTemplate.toList = .ok ⟨"products", "index", [("discount", .int 50)]⟩ := by
  have hadded : Adapter.productTable.add (.text saleTemplate) saleDefaults =
      .ok { Adapter.productTable with
        custom := Adapter.productTable.custom ++ [.ofLiteral saleTemplate saleDefaults] } := by
    with_unfolding_all rfl
  have hearlier : ∀ route ∈ Adapter.productTable.custom, route.resolve saleTemplate.toList = .ok none := by
    intro route hroute
    obtain rfl := List.mem_singleton.1 hroute
    with_unfolding_all rfl
  refine ⟨_, hadded, ?_⟩
  have hown := (Table.resolve_literal (by decide +kernel) hadded []).1 (by decide +kernel) hearlier "products" "index"
    ⟨_, rfl, rfl, Value.written?_text _⟩ ⟨_, rfl, rfl, Value.written?_text _⟩
  rw [List.append_nil] at hown
  exact hown

/-- A route with a slash at its end does not decide about its own text: the standard routes do. -/
theorem resolve_literal_slash :
    IsLiteral "/login/".toList ∧
    ∃ added, Table.standard.add (.text "/login/") [("resource", .text "sessions"), ("action", .text "new")] =
        .ok added ∧
      added.resolve "/login/".toList = .ok ⟨"login", "index", []⟩ := by
  refine ⟨by decide +kernel, _, by with_unfolding_all rfl, by with_unfolding_all rfl⟩

end Gatehouse.Route
