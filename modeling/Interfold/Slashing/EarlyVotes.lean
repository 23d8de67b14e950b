import Interfold.Slashing.QuorumVotes

/-!
# Votes that come before their accusation

A node keeps the votes for an accusation that it does not hold, up to the size of the committee, and
counts them when the accusation arrives.
-/

namespace Interfold.AccusationVoting

open AssocList Emission

namespace Voting

variable {crypto : Crypto} {s : Voting} {id : Key}

/-- Votes of committee members for an accusation, with valid signatures. -/
def Admits (crypto : Crypto) (s : Voting) (id : Key) (votes : List AccusationVote) : Prop :=
  ∀ v ∈ votes, v.accusationId = id ∧ s.admitVote crypto v = .ok v

lemma Admits.congr {s' : Voting} (h : s.Admits crypto id votes) (hrost : s'.roster = s.roster) :
    s'.Admits crypto id votes := by
  grind [Admits, admitVote, roster, verifyVoteSignature]

end Voting

open Voting

end Interfold.AccusationVoting
