import TableMapper.Connect.Params
import TableMapper.Derive.Expansion
import TableMapper.Rehearsal
import TableMapper.Proofs.ArgumentOrder
import TableMapper.Proofs.ChangeGrammar
import TableMapper.Proofs.ConditionMeaning
import TableMapper.Proofs.CountingColumn
import TableMapper.Proofs.CreationOptions
import TableMapper.Proofs.DryRun
import TableMapper.Proofs.FieldNames
import TableMapper.Proofs.GuardedInsert
import TableMapper.Proofs.IntegerReading
import TableMapper.Proofs.Interleaving
import TableMapper.Proofs.KeyNames
import TableMapper.Proofs.LiveColumnReading
import TableMapper.Proofs.LiveKeysReading
import TableMapper.Proofs.PatternMeaning
import TableMapper.Proofs.Polling
import TableMapper.Proofs.RecordLayout
import TableMapper.Proofs.RepeatedColumns
import TableMapper.Proofs.SchemaCache
import TableMapper.Proofs.SelectClauses
import TableMapper.Proofs.ShownStatement
import TableMapper.Proofs.TagReading
import TableMapper.Proofs.TemporalDefault
import TableMapper.Proofs.UpdateAssignments
import TableMapper.Proofs.WrittenCode
