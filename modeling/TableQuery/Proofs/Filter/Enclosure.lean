import TableQuery.Proofs.Filter.Rendering

/-!
# Texts in parentheses

A closing parenthesis ends every token before it, and no token that was complete goes on over it.
So the tokens of a text are read off it before a closing parenthesis as they are before the end, with
what white space there is between the last of them and the parenthesis (`reads_before_rightParen`).
-/

namespace TableQuery.Filter

/-- The tokens of which a text consists are read off it before other tokens. -/
theorem Lexes.reads {start : Nat} {cs ds rest : List Char} {ts us : List Token}
    (h : Lexes start cs (ds ++ rest) ts) (hds : Reads ds rest us) (hne : us ≠ []) :
  Reads (cs ++ ds) rest (ts.map Token.unplaced ++ us)
  := by
  generalize hmiddle : ds ++ rest = middle at h
  induction h with
  | gaps hgaps => apply hds.gaps hgaps hne
  | @token start gaps lexeme cs middle t ts hgaps ht _ _ ih =>
    rw [← hmiddle, ← List.append_assoc] at ht
    rw [List.append_assoc, List.append_assoc]
    apply (ht.reads.append (ih hmiddle)).gaps hgaps (by simp)

/-- The tokens of a text are read before a closing parenthesis, and so is the parenthesis. -/
theorem reads_before_rightParen {s : String} {ts : List Token} (h : tokenize s = .ok ts)
    (rest : List Char) :
  ∃ body stop, ts = body ++ [.endAt stop] ∧
    Reads (s.toList ++ [')']) rest (body.map Token.unplaced ++ [rightParen])
  := by
  obtain ⟨body, rfl, hlexes⟩ := tokenize_eq_ok_iff_lexes.mp h
  have hbefore : Lexes 0 s.toList ([')'] ++ rest) body :=
    hlexes.before (isBoundary_rightParen rest).endsAlike
  exact ⟨body, _, rfl, hbefore.reads (scans_rightParen rest).reads (by simp)⟩

/-- The tokens between two parentheses, and the parentheses. -/
def enclosed (us : List Token) : List Token :=
  leftParen :: us ++ [rightParen]

/-- A text in parentheses is read as its tokens in parentheses. -/
theorem reads_enclosed {s : String} {ts : List Token} (h : tokenize s = .ok ts)
    (rest : List Char) :
  ∃ body stop, ts = body ++ [.endAt stop] ∧
    Reads ('(' :: s.toList ++ [')']) rest (enclosed (body.map Token.unplaced))
  := by
  obtain ⟨body, stop, rfl, hreads⟩ := reads_before_rightParen h rest
  exact ⟨body, stop, rfl, (scans_leftParen _).reads.append hreads⟩

end TableQuery.Filter
