import StudentStatus.Chaincode.Affiliations
import StudentStatus.Chaincode.Concurrency
import StudentStatus.Chaincode.Confidentiality
import StudentStatus.Chaincode.Conflicts
import StudentStatus.Chaincode.Endorsement
import StudentStatus.Chaincode.PartialUpdate
import StudentStatus.Chaincode.Permanence
import StudentStatus.Chaincode.RecordValidity
import StudentStatus.Chaincode.RegisterQueries
import StudentStatus.Chaincode.StudentListing
import StudentStatus.Chaincode.StubFailures
import StudentStatus.Chaincode.WriteIsolation
import StudentStatus.Explorer.SyncRuns
import StudentStatus.Web.StudentHandlers
import StudentStatus.Web.Accounts
import StudentStatus.Web.IdentityGuard
import StudentStatus.Web.StudentsPageRuns
