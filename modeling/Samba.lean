import Samba.Lib.Mask
import Samba.Security.Descriptor
import Samba.Security.AccessCheck
import Samba.Security.DsAccessCheck
import Samba.Security.CreateDescriptor
import Samba.Ldb.Match
import Samba.Ldb.Pack
import Samba.Smbd.CheckPath
import Samba.Ldb.Dn
import Samba.Ldb.KvIndex
import Samba.Tdb.Freelist
import Samba.Lib.SeqWindow
import Samba.Smbd.Credits
import Samba.Compression.Lzxpress
import Samba.Ldb.DnCompare
import Samba.Security.Sddl
import Samba.Tdb.Lock
import Samba.Lib.Fallible
import Samba.Ldb.PackData
import Samba.Ldb.PackRoundTrip
import Samba.Lib.PrefixCode
import Samba.Compression.LzxpressHuffman
import Samba.Tdb.Allocate
import Samba.Winbindd.Autorid
import Samba.Smbd.OpenMode
import Samba.Security.InheritanceShape
import Samba.Ldb.Parse
import Samba.Ldb.ParseRoundTrip
import Samba.Lib.Glob
import Samba.Ldb.Wildcard
import Samba.Ldb.WildcardReads
import Samba.Lib.SortedMerge
import Samba.Ldb.KvIndexSet
import Samba.Dsdb.DnBinary
import Samba.Asn1.Oid
import Samba.Ldb.MsgValues
import Samba.Lib.Utf8
import Samba.Charset.Iconv
import Samba.Lib.CommonPrefix
import Samba.Ctdb.IpDistance
import Samba.Security.SddlConditionalAce
import Samba.Util.Time
import Samba.Librpc.NdrBasic
import Samba.Librpc.NdrString
import Samba.Lib.Digits
import Samba.Security.SidString
import Samba.Lib.BackRef
import Samba.Compression.LzxpressEncode
import Samba.Compression.LzxpressRoundTrip
import Samba.Tdb.ChainLock
