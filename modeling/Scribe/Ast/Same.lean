import Scribe.Ast.Basic

/-!
# Equality of syntax

Two nodes are the same if they have the same constructor and the same parts. Their places in the
source do not count.
-/

namespace Scribe

mutual

/-- The expressions are the same up to places. -/
def Expr.same : Expr → Expr → Bool
  | .reference n s _, other => match other with
    | .reference n' s' _ => n == n' && s == s'
    | _ => false
  | .defaultParameter n v _, other => match other with
    | .defaultParameter n' v' _ => n == n' && v.same v'
    | _ => false
  | .typedParameter n t s _, other => match other with
    | .typedParameter n' t' s' _ => n == n' && t == t' && s == s'
    | _ => false
  | .typedDefaultParameter n t v _, other => match other with
    | .typedDefaultParameter n' t' v' _ => n == n' && t == t' && v.same v'
    | _ => false
  | .call c as _, other => match other with
    | .call c' as' _ => c.same c' && Expr.sameAll as as'
    | _ => false
  | .keywordArgument n v _, other => match other with
    | .keywordArgument n' v' _ => n == n' && v.same v'
    | _ => false
  | .member o p _, other => match other with
    | .member o' p' _ => o.same o' && p.same p'
    | _ => false
  | .subscript v i _, other => match other with
    | .subscript v' i' _ => v.same v' && i.same i'
    | _ => false
  | .slice a b c _, other => match other with
    | .slice a' b' c' _ => Expr.sameOption a a' && Expr.sameOption b b' && Expr.sameOption c c'
    | _ => false
  | .binary l op r _, other => match other with
    | .binary l' op' r' _ => l.same l' && op == op' && r.same r'
    | _ => false
  | .not e _, other => match other with
    | .not e' _ => e.same e'
    | _ => false
  | .unary op e _, other => match other with
    | .unary op' e' _ => op == op' && e.same e'
    | _ => false
  | .conditional t c a _, other => match other with
    | .conditional t' c' a' _ => t.same t' && c.same c' && a.same a'
    | _ => false
  | .parenthesized e _, other => match other with
    | .parenthesized e' _ => e.same e'
    | _ => false
  | .lambda ps b _, other => match other with
    | .lambda ps' b' _ => Expr.sameAll ps ps' && b.same b'
    | _ => false
  | .string t _, other => match other with
    | .string t' _ => t == t'
    | _ => false
  | .number k t _, other => match other with
    | .number k' t' _ => k == k' && t == t'
    | _ => false
  | .boolean b _, other => match other with
    | .boolean b' _ => b == b'
    | _ => false
  | .null _, other => match other with
    | .null _ => true
    | _ => false
  | .sequence k is _, other => match other with
    | .sequence k' is' _ => k == k' && Expr.sameItems is is'
    | _ => false
  | .dictionary es _, other => match other with
    | .dictionary es' _ => Expr.sameAll es es'
    | _ => false
  | .pair k v _, other => match other with
    | .pair k' v' _ => k.same k' && v.same v'
    | _ => false
termination_by structural e => e

/-- The lists of expressions are the same up to places. -/
def Expr.sameAll : List Expr → List Expr → Bool
  | [], [] => true
  | e :: es, e' :: es' => e.same e' && Expr.sameAll es es'
  | _, _ => false

/-- Both expressions are absent, or both present and the same up to places. -/
def Expr.sameOption : Option Expr → Option Expr → Bool
  | none, none => true
  | some e, some e' => e.same e'
  | _, _ => false

/-- The items of two sequences are the same up to places. -/
def Expr.sameItems : List (Option Expr) → List (Option Expr) → Bool
  | [], [] => true
  | i :: is, i' :: is' => Expr.sameOption i i' && Expr.sameItems is is'
  | _, _ => false

end

mutual

/-- The statements are the same up to places. -/
def Stmt.same : Stmt → Stmt → Bool
  | .expression e, other => match other with
    | .expression e' => e.same e'
    | _ => false
  | .assignment l r op t _, other => match other with
    | .assignment l' r' op' t' _ => l.same l' && Expr.sameOption r r' && op == op' && t == t'
    | _ => false
  | .function n ps b t ds _, other => match other with
    | .function n' ps' b' t' ds' _ =>
      n == n' && Expr.sameAll ps ps' && Stmt.sameAll b b' && t == t' && ds == ds'
    | _ => false
  | .classDefinition n b as ds _, other => match other with
    | .classDefinition n' b' as' ds' _ =>
      n == n' && Stmt.sameAll b b' && ds == ds' && (match as, as' with
        | none, none => true
        | some as, some as' => Expr.sameAll as as'
        | _, _ => false)
    | _ => false
  | .conditional cs _, other => match other with
    | .conditional cs' _ => Stmt.sameChoices cs cs'
    | _ => false
  | .forLoop l r b _, other => match other with
    | .forLoop l' r' b' _ => l.same l' && r.same r' && Stmt.sameAll b b'
    | _ => false
  | .whileLoop t b _, other => match other with
    | .whileLoop t' b' _ => t.same t' && Stmt.sameAll b b'
    | _ => false
  | .returning v _, other => match other with
    | .returning v' _ => Expr.sameOption v v'
    | _ => false
  | .raising v _, other => match other with
    | .raising v' _ => v.same v'
    | _ => false
  | .simple k _, other => match other with
    | .simple k' _ => k == k'
    | _ => false
  | .comment t _, other => match other with
    | .comment t' _ => t == t'
    | _ => false
termination_by structural s => s

/-- The bodies are the same up to places. -/
def Stmt.sameAll : List Stmt → List Stmt → Bool
  | [], [] => true
  | s :: ss, s' :: ss' => s.same s' && Stmt.sameAll ss ss'
  | _, _ => false

/-- The choices are the same up to places. -/
def Choice.same : Choice → Choice → Bool
  | .mk t b, .mk t' b' => Expr.sameOption t t' && Stmt.sameAll b b'

/-- The chains of choices are the same up to places. -/
def Stmt.sameChoices : List Choice → List Choice → Bool
  | [], [] => true
  | c :: cs, c' :: cs' => c.same c' && Stmt.sameChoices cs cs'
  | _, _ => false

end

/-- The nodes are the same up to places. -/
def Node.same : Node → Node → Bool
  | .program p, .program q => Stmt.sameAll p.body q.body
  | .item s, .item t => s.same t
  | _, _ => false

end Scribe
