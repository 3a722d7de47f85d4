import LinkTemplate.Template
import LinkTemplate.Proofs.Basics
/-!
# The course of a reading

A text is read literal by literal and expression by expression, until it is over or an obstacle
comes. Every text has such a course, and facts about reading are inductions on it.
-/

namespace LinkTemplate

/-! ## Obstacles -/

/-- What can stand behind a text that can be read, and makes the whole unreadable. -/
inductive Obstacle
  | strayClosing (rest : Text)
  | unterminated (body : Text)
  | nested (body rest : Text)
  | emptyBraces (rest : Text)
  /-- The body is no expression. -/
  | unreadable (body rest : Text) (error : SyntaxError)

namespace Obstacle

def text : Obstacle → Text
  | strayClosing rest => '}' :: rest
  | unterminated body => '{' :: body
  | nested body rest => '{' :: (body ++ '{' :: rest)
  | emptyBraces rest => '{' :: '}' :: rest
  | unreadable body rest _ => '{' :: (body ++ '}' :: rest)

def Valid : Obstacle → Prop
  | strayClosing _ | emptyBraces _ => True
  | unterminated body | nested body _ => Text.BraceFree body
  | unreadable body _ error =>
    Text.BraceFree body ∧ body ≠ [] ∧ Expression.parse body = .error error

def problem : Obstacle → Problem
  | strayClosing _ => .unmatchedClosingBrace
  | unterminated _ => .unterminatedExpression
  | nested _ _ => .nestedOpeningBrace
  | emptyBraces _ => .emptyExpression
  | unreadable _ _ error => error.problem

/-- Where the problem is, counted from 1 at the start of the obstacle. -/
def position : Obstacle → Nat
  | strayClosing _ => 1
  | unterminated body => body.length + 1
  | nested body _ => body.length + 2
  | emptyBraces _ => 2
  | unreadable _ _ error => 1 + error.position

theorem position_pos (obstacle : Obstacle) : 0 < obstacle.position := by
  cases obstacle <;> simp only [position] <;> omega

theorem atBrace_text (obstacle : Obstacle) : Text.AtBrace obstacle.text := by
  cases obstacle with
  | strayClosing rest => exact Text.atBrace_closing _
  | _ => exact Text.atBrace_opening _

theorem text_injective {o o' : Obstacle} (h : o.Valid) (h' : o'.Valid) (ht : o.text = o'.text) :
    o = o' := by
  -- Past the opening brace both texts go on to their end or to the same first brace.
  cases o <;> cases o' <;>
    simp only [text, List.cons.injEq, true_and, false_and, Char.reduceEq] at ht
  all_goals simp only [Valid] at h h'
  all_goals grind [Text.first_brace_unique, Text.BraceFree, List.append_eq_cons_iff]

end Obstacle

/-! ## The course -/

inductive Course : Text → Prop
  | done : Course []
  | obstacle {obstacle : Obstacle} : obstacle.Valid → Course obstacle.text
  | literal {text rest : Text} : text ≠ [] → Text.BraceFree text → Text.AtBrace rest →
      Course rest → Course (text ++ rest)
  | braces {body rest : Text} {expression : Expression} : Text.BraceFree body → body ≠ [] →
      Expression.parse body = .ok expression → Course rest → Course ('{' :: (body ++ '}' :: rest))

theorem course (text : Text) : Course text := by
  induction hn : text.length using Nat.strongRecOn generalizing text with
  | ind n ih =>
  obtain ⟨before, rest, rfl, hbefore, hrest⟩ := Text.exists_first_brace text
  by_cases hne : before = []
  · subst hne
    obtain rfl | ⟨rest, rfl | rfl⟩ := hrest
    · exact .done
    · -- What comes next decides, and a body is read only once its closing brace is there.
      obtain ⟨body, rest, rfl, hbody, rfl | ⟨rest, rfl | rfl⟩⟩ := Text.exists_first_brace rest
      · rw [List.append_nil]
        exact @Course.obstacle (.unterminated body) hbody
      · exact @Course.obstacle (.nested body rest) hbody
      · by_cases hempty : body = []
        · subst hempty
          exact @Course.obstacle (.emptyBraces rest) trivial
        · cases hread : Expression.parse body with
          | error error =>
            exact @Course.obstacle (.unreadable body rest error) ⟨hbody, hempty, hread⟩
          | ok expression =>
            refine .braces hbody hempty hread (ih rest.length ?_ rest rfl)
            simp at hn
            omega
    · exact @Course.obstacle (.strayClosing rest) trivial
  · refine .literal hne hbefore hrest (ih rest.length ?_ rest rfl)
    have hpos := List.length_pos_iff.mpr hne
    simp at hn
    omega

end LinkTemplate
