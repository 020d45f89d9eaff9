import JanetEmbedding.CommandLine.Program
import JanetEmbedding.Host.Call
import JanetEmbedding.Main
import JanetEmbedding.Nesting
import JanetEmbedding.Proofs.Conservation
import JanetEmbedding.Proofs.Discipline
import JanetEmbedding.Proofs.Isolation
import JanetEmbedding.Proofs.KeyText
import JanetEmbedding.Proofs.Renumbering
import JanetEmbedding.Proofs.Sequence
import JanetEmbedding.Proofs.Stopping
import JanetEmbedding.Proofs.TwoRuns
import JanetEmbedding.Proofs.Attempt
import JanetEmbedding.Proofs.Refused
import JanetEmbedding.Proofs.NumberText
import JanetEmbedding.Proofs.RoundTrip
import JanetEmbedding.Proofs.Starting
import JanetEmbedding.Proofs.Sharing
import JanetEmbedding.Proofs.Answers
import JanetEmbedding.Proofs.ErrorKinds
import JanetEmbedding.Proofs.Loading
import JanetEmbedding.Proofs.Walk
import JanetEmbedding.Proofs.Notices
import JanetEmbedding.Proofs.Queue
import JanetEmbedding.Proofs.Duplicates
import JanetEmbedding.Proofs.Terminal
import JanetEmbedding.Proofs.Sessions
import JanetEmbedding.Proofs.Conversation
import JanetEmbedding.Proofs.EmptySlots
import JanetEmbedding.Proofs.Keys
import JanetEmbedding.Proofs.WrittenEntries
import JanetEmbedding.Proofs.Validity
import JanetEmbedding.Proofs.Spelling
import JanetEmbedding.Proofs.Layering
import JanetEmbedding.Proofs.Flags
import JanetEmbedding.Proofs.TimeLimit
import JanetEmbedding.Proofs.Letters
import JanetEmbedding.Proofs.Scripts
import JanetEmbedding.Proofs.StoredText
