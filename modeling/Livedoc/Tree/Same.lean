import Livedoc.Tree.Node

/-!
# Equal up to position

Two nodes are the same if they agree in everything but their spans. Setting all
spans of a node to one value gives its `bare` form; the same nodes are those with
the same bare form.
-/

namespace Livedoc.Tree

/-- An argument without its place. -/
def Argument.bare (a : Argument) : Argument := ⟨a.content, .unknown⟩

/-- A named argument without its place. -/
def NamedArgument.bare (a : NamedArgument) : NamedArgument := ⟨a.name, a.value.bare, .unknown⟩

namespace Node

mutual

/-- A node without any place. -/
def bare : Node → Node
  | text content _ => text content .unknown
  | code content language inline _ => code content language inline .unknown
  | math content display _ => math content display .unknown
  | image source alt title width height _ => image source alt title width height .unknown
  | lineBreak _ => lineBreak .unknown
  | thematicBreak _ => thematicBreak .unknown
  | document cs _ => document (bareAll cs) .unknown
  | paragraph cs _ => paragraph (bareAll cs) .unknown
  | heading level cs _ => heading level (bareAll cs) .unknown
  | list ordered cs start _ => list ordered (bareAll cs) start .unknown
  | listItem cs _ => listItem (bareAll cs) .unknown
  | blockquote cs quoteType _ => blockquote (bareAll cs) quoteType .unknown
  | link url cs title _ => link url (bareAll cs) title .unknown
  | emphasis cs strong _ => emphasis (bareAll cs) strong .unknown
  | table headers rows alignment _ => table (bareCells headers) (bareRows rows) alignment .unknown
  | row cs alignment gap _ => row (bareAll cs) alignment gap .unknown
  | column cs alignment gap _ => column (bareAll cs) alignment gap .unknown
  | grid cs columns gap _ => grid (bareAll cs) columns gap .unknown
  | center cs _ => center (bareAll cs) .unknown
  | call name args named body _ =>
    call name (args.map (·.bare)) (named.map (·.bare)) (bareAll body) .unknown
  | reference name _ => reference name .unknown
  | conditional condition consequent alternative _ =>
    conditional condition (bareAll consequent) (bareAll alternative) .unknown
  | loop count body counter _ => loop count (bareAll body) counter .unknown

/-- Several nodes without any place. -/
def bareAll : List Node → List Node
  | [] => []
  | n :: rest => n.bare :: bareAll rest

/-- Several cells without any place. -/
def bareCells : List (List Node) → List (List Node)
  | [] => []
  | cell :: rest => bareAll cell :: bareCells rest

/-- Several rows without any place. -/
def bareRows : List (List (List Node)) → List (List (List Node))
  | [] => []
  | cells :: rest => bareCells cells :: bareRows rest

end

mutual

/-- Whether two nodes agree in everything but their spans. -/
def same : Node → Node → Bool
  | text a _, text b _ => a == b
  | code a l i _, code b m j _ => a == b && l == m && i == j
  | math a d _, math b e _ => a == b && d == e
  | image s a t w h _, image s' a' t' w' h' _ =>
    s == s' && a == a' && t == t' && w == w' && h == h'
  | lineBreak _, lineBreak _ => true
  | thematicBreak _, thematicBreak _ => true
  | document a _, document b _ => sameAll a b
  | paragraph a _, paragraph b _ => sameAll a b
  | heading l a _, heading m b _ => l == m && sameAll a b
  | list o a s _, list p b t _ => o == p && s == t && sameAll a b
  | listItem a _, listItem b _ => sameAll a b
  | blockquote a q _, blockquote b r _ => q == r && sameAll a b
  | link u a t _, link v b s _ => u == v && t == s && sameAll a b
  | emphasis a s _, emphasis b t _ => s == t && sameAll a b
  | table h r a _, table h' r' a' _ => a == a' && sameCells h h' && sameRows r r'
  | row a l g _, row b m h _ => l == m && g == h && sameAll a b
  | column a l g _, column b m h _ => l == m && g == h && sameAll a b
  | grid a n g _, grid b m h _ => n == m && g == h && sameAll a b
  | center a _, center b _ => sameAll a b
  | call n a k b _, call n' a' k' b' _ =>
    n == n' && a.map (·.bare) == a'.map (·.bare) && k.map (·.bare) == k'.map (·.bare) &&
      sameAll b b'
  | reference a _, reference b _ => a == b
  | conditional c t e _, conditional c' t' e' _ => c == c' && sameAll t t' && sameAll e e'
  | loop c b v _, loop c' b' v' _ => c == c' && v == v' && sameAll b b'
  | _, _ => false

/-- Whether two lists hold the same nodes. -/
def sameAll : List Node → List Node → Bool
  | [], [] => true
  | a :: as, b :: bs => a.same b && sameAll as bs
  | _, _ => false

/-- Whether two lists of cells hold the same nodes. -/
def sameCells : List (List Node) → List (List Node) → Bool
  | [], [] => true
  | a :: as, b :: bs => sameAll a b && sameCells as bs
  | _, _ => false

/-- Whether two lists of rows hold the same nodes. -/
def sameRows : List (List (List Node)) → List (List (List Node)) → Bool
  | [], [] => true
  | a :: as, b :: bs => sameCells a b && sameRows as bs
  | _, _ => false

end

end Node

end Livedoc.Tree
