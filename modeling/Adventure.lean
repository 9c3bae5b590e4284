import Adventure.Main
import Adventure.Proofs.Failure
import Adventure.Proofs.Locks
import Adventure.Proofs.Plan
import Adventure.Proofs.Effects
import Adventure.Proofs.Dangling
import Adventure.Proofs.Seen
import Adventure.Proofs.Secrecy
import Adventure.Proofs.Casing
import Adventure.Proofs.Phrases
import Adventure.Proofs.Parsing
import Adventure.Proofs.Synonyms
import Adventure.Proofs.Answers
import Adventure.Proofs.Walking
import Adventure.Proofs.Naming
import Adventure.Proofs.Quitting
import Adventure.Proofs.RuleNames
import Adventure.Proofs.Winning
import Adventure.Proofs.Exactness
import Adventure.Proofs.Using
import Adventure.Proofs.Narrowing
import Adventure.Proofs.Padding
import Adventure.Proofs.InTurn
import Adventure.Proofs.Transcripts
import Adventure.Proofs.ThereAndBack
import Adventure.Proofs.AnyOrder
import Adventure.Proofs.Stranded
import Adventure.Proofs.Exits
import Adventure.Proofs.Aliases
import Adventure.Proofs.Subtrees
import Adventure.Proofs.Rereading
import Adventure.Proofs.Wordwise
